/-
Requests to the State-File thread from other threads at any time: `sf_set_master`, `sf_set_pool_state` and
`sf_set_excluded`. A flag of the local record stays in memory until it is on disk (`excluded_is_kept`). The mask
bit of a field of the global section is cleared by the `readsf` before the write, so memory keeps the request
exactly in the runs in which no `readsf` takes it (`pending_updates_survive`); the buffer may carry it to the
disk (`requests_are_carried`), and a failed `sf_writeglobal` loses it. Each step keeps the value and the bit, or
is the one section that moves them (`sfNext_untaken`, `sfNext_taken`); the runs follow by induction.
-/
import Xha.StateFile.Excluded
import Xha.StateFile.PoolState

namespace Xha

open Transition

/-! ## Requests -/

/-- The daemon with the last value requested of each field; with a field of the global section stands the number
of global sections the host had written by then. -/
structure RequestWorld where
  daemon : SfWorld
  master : Option (MtcUuid × Nat)
  poolState : Option (PoolState × Nat)
  excluded : Option Bool

inductive RequestAction
  | daemon (a : SfAction)
  | setMaster (master : MtcUuid)
  | setPoolState (poolState : PoolState)
  | setExcluded (excluded : Bool)

def requestNext (c : HaConfig) (w : RequestWorld) : RequestAction → Option RequestWorld
  | .daemon a => (sfNext c w.daemon a).map fun d => { w with daemon := d }
  | .setMaster master => some { w with
    daemon := { w.daemon with sf := sfSetMaster master w.daemon.sf }
    master := some (master, w.daemon.globalWrites.length) }
  | .setPoolState poolState => some { w with
    daemon := { w.daemon with sf := sfSetPoolState poolState w.daemon.sf }
    poolState := some (poolState, w.daemon.globalWrites.length) }
  | .setExcluded excluded => some { w with
    daemon := { w.daemon with sf := sfSetExcluded c.myIndex excluded w.daemon.sf }
    excluded := some excluded }

/-- Wherever the State-File thread stands, nothing has been requested. -/
def requestMachine (c : HaConfig) : Machine RequestWorld RequestAction where
  init w := w.master = none ∧ w.poolState = none ∧ w.excluded = none
  next := requestNext c

/-! ## The flag of the local record -/

/-- The last flag requested stays in memory, and is on disk between two cycles once its mask bit is clear. -/
theorem excluded_is_kept {c : HaConfig} {w : RequestWorld} (h : (requestMachine c).Reachable w) {v : Bool}
    (hv : w.excluded = some v) : w.daemon.sf.excluded.isOn c.myIndex = v ∧
      (w.daemon.pc = .waiting → w.daemon.sf.modifiedMask.excluded = false → (w.daemon.disk.host c.myIndex).excluded = v) := by
  have hme : c.myIndex < maxHostNum := lt_of_lt_of_le c.myIndex_lt c.hostnum_le
  have hinv : ∀ v, w.excluded = some v → FlagRequested c.myIndex v w.daemon := by
    refine h.inv (I := fun w => ∀ v, w.excluded = some v → FlagRequested c.myIndex v w.daemon) ?_ ?_
    · rintro s ⟨-, -, hnone⟩ v hv
      rw [hnone] at hv
      cases hv
    · intro s t a hs _ hn v hv
      cases a with
      | daemon a =>
        obtain ⟨d, hd, rfl⟩ := Option.map_eq_some_iff.1 hn
        exact (hs v hv).next hd
      | setMaster m =>
        cases hn
        obtain ⟨hf, hc, hd, hr⟩ := hs v hv
        exact ⟨hf, hc, hd, hr⟩
      | setPoolState p =>
        cases hn
        obtain ⟨hf, hc, hd, hr⟩ := hs v hv
        exact ⟨hf, hc, hd, hr⟩
      | setExcluded b =>
        cases hn
        cases hv
        exact FlagRequested.request hme _ s.daemon
  obtain ⟨hflag, -, hdisk, -⟩ := hinv v hv
  exact ⟨hflag, fun hpc hm => hdisk hm fun r => by rw [hpc]; nofun⟩

/-! ## The fields of the global section in memory -/

/-- The value last requested is not written yet. -/
def Unwritten {α : Type} (F : GlobalField α) (d : SfWorld) : Option (α × Nat) → Prop
  | some (v, since) => ¬ Written F v since d
  | none => False

/-- Until the value last requested is written, the object has it, with its mask bit. -/
def Pending {α : Type} (F : GlobalField α) (d : SfWorld) : Option (α × Nat) → Prop
  | some (v, since) => Written F v since d ∨ F.value d.sf = v ∧ F.pending d.sf.modifiedMask = true
  | none => True

/-- The writes counted at a request were there. -/
def Counted {α : Type} (d : SfWorld) : Option (α × Nat) → Prop
  | some (_, since) => since ≤ d.globalWrites.length
  | none => True

/-- Both fields of the global section are kept until they are written. -/
def RequestWorld.Survives (w : RequestWorld) : Prop :=
  Pending masterField w.daemon w.master ∧ Pending poolStateField w.daemon w.poolState

/-- The step is the locked part of a `readsf` that read every section, while a value requested is not written. -/
def TakesUnwritten (c : HaConfig) (w : RequestWorld) : RequestAction → Prop
  | .daemon .update => w.daemon.pc.hasReadAll c.hostnum = true ∧
      (Unwritten masterField w.daemon w.master ∨ Unwritten poolStateField w.daemon w.poolState)
  | _ => False

section

variable {α : Type} {F : GlobalField α} {c : HaConfig} {d d' : SfWorld} {r : Option (α × Nat)}

theorem Counted.next {a : SfAction} (h : Counted d r) (hn : sfNext c d a = some d') : Counted d' r := by
  rcases r with _ | ⟨v, since⟩
  · exact h
  · have hsince : since ≤ d.globalWrites.length := h
    show since ≤ d'.globalWrites.length
    rcases sfNext_globalWrites hn with hw | ⟨g, hw⟩
    · rw [hw]
      exact hsince
    · rw [hw, List.length_cons]
      omega

theorem Pending.next (hF : F.Merged) {a : SfAction} (hc : Counted d r) (h : Pending F d r)
    (hok : ¬ (a = .update ∧ d.pc.hasReadAll c.hostnum = true ∧ Unwritten F d r)) (hn : sfNext c d a = some d') :
    Pending F d' r := by
  rcases r with _ | ⟨v, since⟩
  · exact h
  · by_cases hw : Written F v since d
    · exact .inl (hw.next hc hn)
    · obtain ⟨hval, hbit⟩ := h.resolve_left hw
      obtain ⟨hvalue, hpending⟩ := sfNext_untaken hF hn fun ha => hok ⟨ha.1, ha.2, hw⟩
      exact .inr ⟨hvalue.trans hval, hpending.trans hbit⟩

theorem Pending.taken (hF : F.Merged) (hu : Unwritten F d r) (hread : d.pc.hasReadAll c.hostnum = true)
    (hn : sfNext c d .update = some d') : ¬ Pending F d' r := by
  rcases r with _ | ⟨v, since⟩
  · exact absurd hu id
  · obtain ⟨hclear, hwrites⟩ := sfNext_taken hF hn hread
    rintro (hw | ⟨-, hbit⟩)
    · exact hu (hw.same hwrites.symm)
    · rw [hclear] at hbit
      cases hbit

end

/-- The writes counted at the last requests were there. -/
def RequestWorld.Counted (w : RequestWorld) : Prop := Xha.Counted w.daemon w.master ∧ Xha.Counted w.daemon w.poolState

/-- A step keeps the requests in memory, but for the locked part of a `readsf`. -/
theorem requestNext_survives {c : HaConfig} {w w' : RequestWorld} {a : RequestAction} (hc : w.Counted) (hs : w.Survives)
    (hn : requestNext c w a = some w') : w'.Counted ∧ (w'.Survives ↔ ¬ TakesUnwritten c w a) := by
  obtain ⟨hcm, hcp⟩ := hc
  obtain ⟨hm, hp⟩ := hs
  cases a with
  | daemon a =>
    obtain ⟨d, hd, rfl⟩ := Option.map_eq_some_iff.1 hn
    refine ⟨⟨hcm.next hd, hcp.next hd⟩, fun hsurvives htakes => ?_, fun htakes => ?_⟩
    · cases a with
      | update =>
        obtain ⟨hread, hum | hup⟩ := htakes
        · exact Pending.taken masterField_merged hum hread hd hsurvives.1
        · exact Pending.taken poolStateField_merged hup hread hd hsurvives.2
      | _ => exact htakes
    · constructor
      · refine hm.next masterField_merged hcm (fun h => htakes ?_) hd
        obtain ⟨rfl, hread, hu⟩ := h
        exact ⟨hread, .inl hu⟩
      · refine hp.next poolStateField_merged hcp (fun h => htakes ?_) hd
        obtain ⟨rfl, hread, hu⟩ := h
        exact ⟨hread, .inr hu⟩
  | setMaster m =>
    cases hn
    exact ⟨⟨le_rfl, hcp⟩, iff_of_true ⟨.inr ⟨rfl, rfl⟩, hp⟩ id⟩
  | setPoolState p =>
    cases hn
    exact ⟨⟨hcm, le_rfl⟩, iff_of_true ⟨hm, .inr ⟨rfl, rfl⟩⟩ id⟩
  | setExcluded b =>
    cases hn
    exact ⟨⟨hcm, hcp⟩, iff_of_true ⟨hm, hp⟩ id⟩

/-- When a request stays in memory, its value and its mask bit, until it is written: in exactly the runs in which no
`readsf` reads every section while a value requested is not written yet. Whether reads and writes fail does not
matter otherwise. -/
theorem pending_updates_survive {c : HaConfig} {s t : RequestWorld} {steps : List (RequestWorld × RequestAction)}
    (h0 : (requestMachine c).init s) (hrun : (requestMachine c).Trace s steps t) :
    (∀ step ∈ steps, step.1.Survives) ∧ t.Survives ↔ ∀ step ∈ steps, ¬ TakesUnwritten c step.1 step.2 := by
  obtain ⟨hmaster, hpool, -⟩ := h0
  have hcounted : s.Counted := ⟨by rw [hmaster]; trivial, by rw [hpool]; trivial⟩
  have hsurvives : s.Survives := ⟨by rw [hmaster]; trivial, by rw [hpool]; trivial⟩
  constructor
  · intro hstays
    have hkept := hrun.inv (fun w _ => w.Survives) RequestWorld.Counted
      (fun w w' a hc hs hn => (requestNext_survives hc hs hn).1) hstays.1 hcounted
    intro step hstep
    obtain ⟨u, hn, hu⟩ := hrun.next hstays step hstep
    exact (requestNext_survives (hkept.1 step hstep) (hstays.1 step hstep) hn).2.1 hu
  · intro hnone
    have hkept := hrun.inv (fun w a => ¬ TakesUnwritten c w a) (fun w => w.Counted ∧ w.Survives)
      (fun w w' a hw hok hn => by
        obtain ⟨hc, hiff⟩ := requestNext_survives hw.1 hw.2 hn
        exact ⟨hc, hiff.2 hok⟩)
      hnone ⟨hcounted, hsurvives⟩
    exact ⟨fun step hstep => (hkept.1 step hstep).2, hkept.2.2⟩

/-! ## The fields of the global section on their way to the disk -/

section

variable {α : Type} {F : GlobalField α} {c : HaConfig} {v : α} {since : Nat} {d d' : SfWorld}

/-- Until it is written, the object has the value, and either the mask bit is set or the next access is the
`sf_writeglobal` that takes the value to the disk. -/
def Kept (F : GlobalField α) (v : α) (since : Nat) (d : SfWorld) : Prop :=
  Written F v since d ∨ F.value d.sf = v ∧
    (F.pending d.sf.modifiedMask = true ∨ d.pc.isWritingGlobal = true ∧ F.stored d.stateFile.global = v)

/-- Only the buffer has the value requested. -/
def OnlyBuffered (F : GlobalField α) (d : SfWorld) : Option (α × Nat) → Prop
  | some (v, since) => F.pending d.sf.modifiedMask = false ∧ ¬ Written F v since d
  | none => False

/-- The write of the global section. -/
theorem Kept.write {status : SfStatus} (hsince : since ≤ d.globalWrites.length) (h : Kept F v since d)
    (hok : OnlyBuffered F d (some (v, since)) → status = .success) (hn : sfNext c d (.writeGlobal status) = some d') :
    since ≤ d'.globalWrites.length ∧ Kept F v since d' := by
  cases sfNext_move hn with
  | globalWritten =>
    -- the buffer is on disk: with the value, or the bit is set for the next cycle
    refine ⟨le_trans hsince (Nat.le_succ _), ?_⟩
    rcases h with hw | ⟨hval, hbit | ⟨_, hbuf⟩⟩
    · exact .inl (Written.more (w := d) hsince rfl (.inr hw))
    · exact .inr ⟨hval, .inl hbit⟩
    · exact .inl (Written.more (w := d) hsince rfl (.inl hbuf))
  | globalUnwritten _ _ hfail =>
    refine ⟨hsince, ?_⟩
    rcases h with hw | ⟨hval, hbit | ⟨_, hbuf⟩⟩
    · exact .inl hw
    · exact .inr ⟨hval, .inl hbit⟩
    · by_cases hw : Written F v since d
      · exact .inl hw
      · cases hbit : F.pending d.sf.modifiedMask
        · exact absurd (hok ⟨hbit, hw⟩) hfail
        · exact .inr ⟨hval, .inl hbit⟩

theorem Kept.next (hF : F.Merged) {a : SfAction} (hsince : since ≤ d.globalWrites.length) (h : Kept F v since d)
    (hok : ∀ status, a = .writeGlobal status → OnlyBuffered F d (some (v, since)) → status = .success)
    (hn : sfNext c d a = some d') : since ≤ d'.globalWrites.length ∧ Kept F v since d' := by
  by_cases ha : ∃ status, a = .writeGlobal status
  · obtain ⟨status, rfl⟩ := ha
    exact h.write hsince (hok status rfl) hn
  · cases sfNext_field hF hn fun status he => ha ⟨status, he⟩ with
    | quiet hvalue hpending _ hwrites hstay =>
      refine ⟨by rw [hwrites]; exact hsince, ?_⟩
      rcases h with hw | ⟨hval, hbit | ⟨hpc, hbuf⟩⟩
      · exact .inl (hw.same hwrites)
      · exact .inr ⟨hvalue.trans hval, .inl (hpending.trans hbit)⟩
      · obtain ⟨hpc', hbuf'⟩ := hstay hpc
        exact .inr ⟨hvalue.trans hval, .inr ⟨by rw [hpc']; exact hpc, by rw [hbuf']; exact hbuf⟩⟩
    | taken hnot hwrites _ hcarry =>
      refine ⟨by rw [hwrites]; exact hsince, ?_⟩
      rcases h with hw | ⟨hval, hbit | ⟨hpc, -⟩⟩
      · exact .inl (hw.same hwrites)
      · obtain ⟨hpc', hstored, hval'⟩ := hcarry hbit
        exact .inr ⟨hval'.trans hval, .inr ⟨hpc', hstored.trans hval⟩⟩
      · rw [hnot] at hpc
        cases hpc

end

/-- What holds of the last request for a field. -/
def LastKept {α : Type} (F : GlobalField α) (d : SfWorld) (r : Option (α × Nat)) : Prop :=
  ∀ v since, r = some (v, since) → since ≤ d.globalWrites.length ∧ Kept F v since d

/-- `sf_writeglobal` succeeds whenever only the buffer has a value requested. -/
def WritesCarry (w : RequestWorld) : RequestAction → Prop
  | .daemon (.writeGlobal status) =>
    OnlyBuffered masterField w.daemon w.master ∨ OnlyBuffered poolStateField w.daemon w.poolState → status = .success
  | _ => True

/-- The last requests for the two fields of the global section are not lost before they are written, in every run
whose `sf_writeglobal` succeeds whenever only the buffer has one. -/
theorem requests_are_carried {c : HaConfig} {w : RequestWorld} (h : (requestMachine c).Reach WritesCarry w) :
    (∀ m since, w.master = some (m, since) → Kept masterField m since w.daemon) ∧
    ∀ s since, w.poolState = some (s, since) → Kept poolStateField s since w.daemon := by
  have hinv : LastKept masterField w.daemon w.master ∧ LastKept poolStateField w.daemon w.poolState := by
    refine h.inv (I := fun w => LastKept masterField w.daemon w.master ∧ LastKept poolStateField w.daemon w.poolState) ?_ ?_
    · rintro s ⟨hm, hp, -⟩
      exact ⟨fun v since hv => (by rw [hm] at hv; cases hv), fun v since hv => (by rw [hp] at hv; cases hv)⟩
    · rintro s t a ⟨hm, hp⟩ hok hn
      cases a with
      | daemon a =>
        obtain ⟨d, hd, rfl⟩ := Option.map_eq_some_iff.1 hn
        constructor
        · intro v since hv
          obtain ⟨hsince, hk⟩ := hm v since hv
          refine hk.next masterField_merged hsince (fun status he hb => ?_) hd
          subst he
          exact hok (.inl (hv ▸ hb))
        · intro v since hv
          obtain ⟨hsince, hk⟩ := hp v since hv
          refine hk.next poolStateField_merged hsince (fun status he hb => ?_) hd
          subst he
          exact hok (.inr (hv ▸ hb))
      | setMaster m =>
        cases hn
        refine ⟨fun v since hv => ?_, hp⟩
        cases hv
        exact ⟨le_rfl, .inr ⟨rfl, .inl rfl⟩⟩
      | setPoolState p =>
        cases hn
        refine ⟨hm, fun v since hv => ?_⟩
        cases hv
        exact ⟨le_rfl, .inr ⟨rfl, .inl rfl⟩⟩
      | setExcluded b => cases hn; exact ⟨hm, hp⟩
  exact ⟨fun m since hv => (hinv.1 m since hv).2, fun s since hv => (hinv.2 s since hv).2⟩

/-! ## The lone host -/

instance {α : Type} [DecidableEq α] (F : GlobalField α) (d : SfWorld) (r : Option (α × Nat)) :
    Decidable (OnlyBuffered F d r) := by
  rcases r with _ | ⟨v, since⟩ <;> unfold OnlyBuffered <;> infer_instance

instance (w : RequestWorld) (a : RequestAction) : Decidable (WritesCarry w a) := by
  unfold WritesCarry; split <;> infer_instance

/-- The daemon's part of a list of steps. -/
def daemonSteps (as : List ScAction) : List RequestAction :=
  as.filterMap fun
    | .daemon a => some (.daemon a)
    | _ => none

def loneRequests : RequestWorld := ⟨loneWorld.daemon, none, none, none⟩

theorem loneRequests_init : (requestMachine loneHost).init loneRequests := ⟨rfl, rfl, rfl⟩

/-- A cycle up to the update of the objects. -/
def cycleToUpdate : List RequestAction :=
  [.daemon .begin, .daemon .copy, .daemon (.write .success)] ++ daemonSteps readAll

/-- The State-File thread waits for its next cycle. -/
def SfPc.isWaiting : SfPc → Bool
  | .waiting => true
  | _ => false

theorem SfPc.eq_waiting {pc : SfPc} (h : pc.isWaiting = true) : pc = .waiting := by
  cases pc <;> first | rfl | cases h

theorem excluded_is_kept_lone : ∃ w : RequestWorld, w.excluded = some true ∧ w.daemon.sf.excluded.isOn 0 = true ∧
    (w.daemon.disk.host 0).excluded = true := by
  have hrun : ∃ w, (requestMachine loneHost).Reachable w ∧
      (decide (w.excluded = some true) && decide (w.daemon.sf.modifiedMask.excluded = false) &&
        w.daemon.pc.isWaiting) = true :=
    Machine.reach_of_check loneRequests_init
      (daemonSteps openStateFile ++ [.setExcluded true, .daemon .begin, .daemon .copy, .daemon (.write .ioError)] ++
        daemonSteps readAll ++ cycleToUpdate) _ (by decide +kernel)
  obtain ⟨w, hw, hp⟩ := hrun
  simp only [Bool.and_eq_true, decide_eq_true_eq] at hp
  obtain ⟨⟨hv, hm⟩, hpc⟩ := hp
  obtain ⟨hflag, hdisk⟩ := excluded_is_kept hw hv
  exact ⟨w, hv, hflag, hdisk (SfPc.eq_waiting hpc) hm⟩

instance {α : Type} [DecidableEq α] (F : GlobalField α) (d : SfWorld) (r : Option (α × Nat)) : Decidable (Unwritten F d r) := by
  rcases r with _ | ⟨v, since⟩ <;> unfold Unwritten <;> infer_instance

instance (c : HaConfig) (w : RequestWorld) (a : RequestAction) : Decidable (TakesUnwritten c w a) := by
  unfold TakesUnwritten; split <;> infer_instance

/-- A `readsf` that fails three times. -/
def readsNothing : List RequestAction := List.replicate 9 (.daemon (.read .ioError)) ++ [.daemon .update]

/-- Two requests, then a write of the host's record and two `readsf` that fail. -/
def requestsKept : List RequestAction :=
  daemonSteps openStateFile ++ [.setMaster ['7'], .setPoolState sfStateInit] ++
    [.daemon .begin, .daemon .copy, .daemon (.write .ioError)] ++ readsNothing ++ [.daemon .begin] ++ readsNothing

/-- The requests stay where they are. -/
theorem pending_updates_survive_lone : ∃ (t : RequestWorld) (steps : List (RequestWorld × RequestAction)),
    (requestMachine loneHost).Trace loneRequests steps t ∧ t.master = some (['7'], 0) ∧ t.daemon.globalWrites = [] ∧
      t.daemon.sf.master = ['7'] ∧ t.daemon.sf.modifiedMask.master = true := by
  have hrun : ((requestMachine loneHost).play (fun w a => ¬ TakesUnwritten loneHost w a) loneRequests
      (requestsKept.map fun a _ => a)).any
      (fun t => decide (t.master = some (['7'], 0)) && decide (t.daemon.globalWrites = [])) = true := by decide +kernel
  obtain ⟨t, ht, hp⟩ := (Option.any_eq_true _ _).1 hrun
  rw [Bool.and_eq_true, decide_eq_true_eq, decide_eq_true_eq] at hp
  obtain ⟨steps, hsteps, hok⟩ := Machine.trace_play _ ht
  have hkept := ((pending_updates_survive loneRequests_init hsteps).2 hok).2.1
  rw [hp.1] at hkept
  rcases hkept with ⟨g, hmem, -⟩ | ⟨hval, hbit⟩
  · rw [hp.2] at hmem
    cases hmem
  · exact ⟨t, steps, hsteps, hp.1, hp.2, hval, hbit⟩

/-- The write of the first request fails while the second has its bit set, and the second is carried to the disk. -/
theorem requests_are_carried_lone : ∃ w : RequestWorld, w.daemon.globalWrites = [] ∧ w.daemon.sf.master = ['8'] := by
  have hrun : ∃ w, (requestMachine loneHost).Reach WritesCarry w ∧
      (decide (w.master = some (['8'], 0)) && decide (w.daemon.globalWrites = [])) = true :=
    Machine.reach_of_check loneRequests_init
      (daemonSteps openStateFile ++ [.setMaster ['7']] ++ cycleToUpdate ++
        [.setMaster ['8'], .daemon (.writeGlobal .ioError)] ++ cycleToUpdate) _ (by decide +kernel)
  obtain ⟨w, hw, hp⟩ := hrun
  simp only [Bool.and_eq_true, decide_eq_true_eq] at hp
  rcases (requests_are_carried hw).1 ['8'] 0 hp.1 with ⟨g, hmem, -⟩ | ⟨hval, -⟩
  · rw [hp.2] at hmem
    cases hmem
  · exact ⟨w, hp.2, hval⟩

/-- `sf_writeglobal` fails after `readsf` has cleared the mask bit, and the next `readsf` copies the disk over the
value requested. -/
theorem pending_master_is_lost : ∃ w, (requestMachine loneHost).Reachable w ∧ w.master = some (['7'], 0) ∧
    w.daemon.globalWrites = [] ∧ w.daemon.sf.modifiedMask.master = false ∧ w.daemon.sf.master = [] := by
  have hrun : ∃ w, (requestMachine loneHost).Reachable w ∧
      (decide (w.master = some (['7'], 0)) && (decide (w.daemon.globalWrites = []) &&
        (decide (w.daemon.sf.modifiedMask.master = false) && decide (w.daemon.sf.master = [])))) = true :=
    Machine.reach_of_check loneRequests_init
      (daemonSteps openStateFile ++ [.setMaster ['7']] ++ cycleToUpdate ++ [.daemon (.writeGlobal .ioError)] ++
        cycleToUpdate)
      _ (by decide +kernel)
  obtain ⟨w, hw, hp⟩ := hrun
  simp only [Bool.and_eq_true, decide_eq_true_eq] at hp
  exact ⟨w, hw, hp⟩

end Xha
