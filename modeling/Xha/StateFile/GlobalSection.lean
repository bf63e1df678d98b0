/-
The global section under the State-File threads of all hosts: one host has its master in it, another the
pool state. Each thread reads the section, puts its own field into the buffer and writes the whole section
back, without a lock, so a write is right as long as the section on disk is still the one that was read
(`updates_do_not_overwrite`). Each field is followed from its request to the disk on its own (`FieldHeld`), as all that
another host writes is what it read.
-/
import Xha.StateFile.GlobalField

namespace Xha

open Loop Transition

/-! ## The pool on one State-File -/

/-- A request of one host, with the number of global sections the host had written by then. -/
structure GlobalRequest (α : Type) where
  host : Nat
  value : α
  since : Nat
  deriving DecidableEq

/-- The hosts on one disk, with the global section each has read last and the two requests made. -/
structure GlobalPool where
  disk : SfImage
  daemon : Nat → SfWorld
  seen : Nat → SfGlobal
  master : Option (GlobalRequest MtcUuid)
  poolState : Option (GlobalRequest PoolState)

/-- The daemon of host `k` with the State-File of the pool. -/
def GlobalPool.view (w : GlobalPool) (k : Nat) : SfWorld := { w.daemon k with disk := w.disk }

inductive GlobalAction
  | daemon (k : Nat) (a : SfAction)
  | setMaster (k : Nat) (master : MtcUuid)
  | setPoolState (k : Nat) (poolState : PoolState)

/-- The access is to the global section and succeeds. -/
def readsGlobal (d : SfWorld) : SfAction → Bool
  | .read .success => match d.pc with
    | .reading _ 0 io => io.globalSection ≠ .success
    | _ => false
  | _ => false

/-- The other hosts' writes are steps of their own. -/
def SfAction.isPeer : SfAction → Bool
  | .peerHost _ _ | .peerGlobal _ => true
  | _ => false

def GlobalRequest.isFrom {α : Type} (k : Nat) : Option (GlobalRequest α) → Bool
  | some r => r.host = k
  | none => false

/-- Each field is requested once, by two hosts. -/
def globalNext (c : HaConfig) (w : GlobalPool) : GlobalAction → Option GlobalPool
  | .daemon k a =>
    if h : k < c.hostnum ∧ a.isPeer = false then
      (sfNext (c.at k h.1) (w.view k) a).map fun d => { w with
        disk := d.disk
        daemon := Function.update w.daemon k d
        seen := if readsGlobal (w.view k) a then Function.update w.seen k w.disk.global else w.seen }
    else none
  | .setMaster k master =>
    if k < c.hostnum ∧ w.master.isNone ∧ GlobalRequest.isFrom k w.poolState = false then
      some { w with
        daemon := Function.update w.daemon k { w.daemon k with sf := sfSetMaster master (w.daemon k).sf }
        master := some ⟨k, master, (w.daemon k).globalWrites.length⟩ }
    else none
  | .setPoolState k poolState =>
    if k < c.hostnum ∧ w.poolState.isNone ∧ GlobalRequest.isFrom k w.master = false then
      some { w with
        daemon := Function.update w.daemon k { w.daemon k with sf := sfSetPoolState poolState (w.daemon k).sf }
        poolState := some ⟨k, poolState, (w.daemon k).globalWrites.length⟩ }
    else none

/-- Wherever the threads stand in their cycles, no update of the global section is on its way. -/
structure GlobalPool.Initial (w : GlobalPool) : Prop where
  master : w.master = none
  poolState : w.poolState = none
  quiet : ∀ k, (w.daemon k).sf.modifiedMask.master = false ∧ (w.daemon k).sf.modifiedMask.poolState = false ∧
    (w.daemon k).pc.isWritingGlobal = false
  seen : ∀ k, w.seen k = (w.daemon k).stateFile.global

def globalMachine (c : HaConfig) : Machine GlobalPool GlobalAction where
  init := GlobalPool.Initial
  next := globalNext c

/-! ## What a step of a host does to the section -/

/-- What the two fields of the section are in the object, the buffer and the mask, and whether the thread
is about to write them, stays the same. -/
structure SameGlobal (w w' : SfWorld) : Prop where
  master : w'.sf.master = w.sf.master
  poolState : w'.sf.poolState = w.sf.poolState
  mask : w'.sf.modifiedMask.master = w.sf.modifiedMask.master ∧ w'.sf.modifiedMask.poolState = w.sf.modifiedMask.poolState
  writes : w'.globalWrites = w.globalWrites
  writing : w'.pc.isWritingGlobal = w.pc.isWritingGlobal

/-- The four things a step can do to the section: nothing, a read, the update of the objects, and the write. -/
inductive SectionStep (reads : Bool) (w w' : SfWorld) : Prop
  | quiet : reads = false → SameGlobal w w' → w'.stateFile.global = w.stateFile.global → w'.disk.global = w.disk.global →
      SectionStep reads w w'
  | read : reads = true → SameGlobal w w' → w'.stateFile.global = w.disk.global → w'.disk.global = w.disk.global →
      w.pc.isWritingGlobal = false → SectionStep reads w w'
  | updated : reads = false → w.pc.isWritingGlobal = false → w'.disk.global = w.disk.global →
      w'.globalWrites = w.globalWrites →
      (w'.pc.isWritingGlobal = true → w.sf.modifiedMask.master = true ∨ w.sf.modifiedMask.poolState = true) →
      (∀ {α : Type} {F : GlobalField α}, F.Merged →
        (F.pending w'.sf.modifiedMask = true → F.pending w.sf.modifiedMask = true ∧ F.value w'.sf = F.value w.sf) ∧
        (F.pending w.sf.modifiedMask = false → F.stored w'.stateFile.global = F.stored w.stateFile.global) ∧
        (F.pending w.sf.modifiedMask = true → w'.pc.isWritingGlobal = true →
          F.stored w'.stateFile.global = F.value w.sf)) → SectionStep reads w w'
  | written : reads = false → w.pc.isWritingGlobal = true → w'.pc.isWritingGlobal = false → w'.sf = w.sf →
      w'.stateFile = w.stateFile →
      (w'.disk.global = w.disk.global ∧ w'.globalWrites = w.globalWrites ∨
        w'.disk.global = w.stateFile.global ∧ w'.globalWrites = w.stateFile.global :: w.globalWrites) →
      SectionStep reads w w'

section

variable {c : HaConfig} {w w' : SfWorld}

/-- A step of the thread outside its accesses to the section. -/
theorem SectionStep.same {a : SfAction} (hreads : readsGlobal w a = false) (hsf : w'.sf = w.sf)
    (hwrites : w'.globalWrites = w.globalWrites) (hpc : w'.pc.isWritingGlobal = w.pc.isWritingGlobal)
    (hfile : w'.stateFile.global = w.stateFile.global) (hdisk : w'.disk.global = w.disk.global) :
    SectionStep (readsGlobal w a) w w' :=
  .quiet hreads ⟨by rw [hsf], by rw [hsf], by rw [hsf]; exact ⟨rfl, rfl⟩, hwrites, hpc⟩ hfile hdisk

theorem updatedObjects_pending (h : (updatedObjects c w).1 ≠ .success) :
    w.sf.modifiedMask.master = true ∨ w.sf.modifiedMask.poolState = true := by
  rw [← (updateHosts_spec c w).mask]
  by_contra hnone
  simp only [not_or, Bool.not_eq_true] at hnone
  exact h (by simp [updatedObjects, updateGlobal, hnone.1, hnone.2])

theorem GlobalField.Merged.taken {α : Type} {F : GlobalField α} (hF : F.Merged) (c : HaConfig) (w : SfWorld) :
    let r := updatedObjects c w
    (F.pending r.2.2.modifiedMask = true → F.pending w.sf.modifiedMask = true ∧ F.value r.2.2 = F.value w.sf) ∧
      (F.pending w.sf.modifiedMask = false → F.stored r.2.1.global = F.stored w.stateFile.global) ∧
      (F.pending w.sf.modifiedMask = true → F.stored r.2.1.global = F.value w.sf) := by
  obtain ⟨hclear, hcarry, hleave⟩ := hF.updated c w
  exact ⟨fun hp => absurd (hp.symm.trans hclear) (by decide), hleave, fun hp => (hcarry hp).2.1⟩

theorem sfNext_section {a : SfAction} (hn : sfNext c w a = some w') (ha : a.isPeer = false) :
    SectionStep (readsGlobal w a) w w' := by
  cases sfNext_move hn with
  | beginWrite hpc | beginRead hpc => exact SectionStep.same rfl rfl rfl (by rw [hpc]; rfl) rfl rfl
  | copied _ hpc => exact .quiet rfl ⟨rfl, rfl, ⟨rfl, rfl⟩, rfl, by rw [hpc]; rfl⟩ rfl rfl
  | written readable _ hpc | unwritten readable _ _ hpc =>
    have hgo : (afterWrite readable).isWritingGlobal = w.pc.isWritingGlobal := by rw [hpc]; cases readable <;> rfl
    exact .quiet rfl ⟨rfl, rfl, ⟨rfl, rfl⟩, rfl, hgo⟩ rfl rfl
  | globalRead attempt io hpc hopen =>
    have hnot : w.pc.isWritingGlobal = false := by rw [hpc]; rfl
    exact .read (by simp [readsGlobal, hpc, hopen]) ⟨rfl, rfl, ⟨rfl, rfl⟩, rfl, by rw [hnot]; rfl⟩ rfl rfl hnot
  | globalSkipped _ io status hpc hdone =>
    refine SectionStep.same ?_ rfl rfl (by rw [hpc]; rfl) rfl rfl
    cases status <;> simp [readsGlobal, hpc, hdone]
  | globalUnread _ _ status hpc _ hs =>
    refine SectionStep.same ?_ rfl rfl (by rw [hpc]; rfl) rfl rfl
    cases status <;> first | rfl | exact absurd rfl hs
  | hostRead _ _ _ hpc => exact SectionStep.same (by simp [readsGlobal, hpc]) rfl rfl (by rw [hpc]; rfl) rfl rfl
  | hostSkipped _ _ _ status hpc | hostUnread _ _ _ status hpc | lastAttempt _ _ _ status hpc
  | nextAttempt _ _ _ status hpc =>
    refine SectionStep.same ?_ rfl rfl (by rw [hpc]; rfl) rfl rfl
    cases status <;> simp [readsGlobal, hpc]
  | updated io hpc =>
    refine .updated rfl (by rw [hpc]; rfl) rfl rfl nofun fun hF => ?_
    obtain ⟨hbit, hleave, hcarry⟩ := hF.taken c w
    exact ⟨hbit, hleave, fun hp _ => hcarry hp⟩
  | updatedPending io hpc _ hne =>
    refine .updated rfl (by rw [hpc]; rfl) rfl rfl (fun _ => updatedObjects_pending hne) fun hF => ?_
    obtain ⟨hbit, hleave, hcarry⟩ := hF.taken c w
    exact ⟨hbit, hleave, fun hp _ => hcarry hp⟩
  | readFailed _ _ _ pc hpc _ hend =>
    have hstay : pc.isWritingGlobal = w.pc.isWritingGlobal := by rw [hpc]; rcases hend with rfl | rfl <;> rfl
    exact .quiet rfl ⟨rfl, rfl, ⟨rfl, rfl⟩, rfl, hstay⟩ rfl rfl
  | globalWritten hpc => exact .written rfl (by rw [hpc]; rfl) rfl rfl rfl (.inr ⟨rfl, rfl⟩)
  | globalUnwritten _ hpc => exact .written rfl (by rw [hpc]; rfl) rfl rfl rfl (.inl ⟨rfl, rfl⟩)
  | beginNothing | tick => exact SectionStep.same rfl rfl rfl rfl rfl rfl
  | objects => exact .quiet rfl ⟨rfl, rfl, ⟨rfl, rfl⟩, rfl, rfl⟩ rfl rfl
  | peerHost | peerGlobal => cases ha

end

/-! ## The field of one host -/

section

variable {α : Type}

/-- A host that does not change the field has in its buffer what it has read. -/
structure FieldRead (F : GlobalField α) (seen : SfGlobal) (d : SfWorld) : Prop where
  pending : F.pending d.sf.modifiedMask = false
  stored : F.stored d.stateFile.global = F.stored seen

/-- The host that changes the field has its value in the object until the bit is clear and in the buffer at
`sf_writeglobal`, and what it has written is on disk. -/
structure FieldOwned (F : GlobalField α) (v : α) (since : Nat) (disk : SfGlobal) (d : SfWorld) : Prop where
  value : F.pending d.sf.modifiedMask = true → F.value d.sf = v
  buffered : d.pc.isWritingGlobal = true → F.stored d.stateFile.global = v
  counted : since ≤ d.globalWrites.length
  onDisk : Written F v since d → F.stored disk = v

variable {F : GlobalField α} {v : α} {since : Nat} {d d' : SfWorld} {seen : SfGlobal} {reads : Bool}

theorem FieldRead.next (hF : F.Merged) (h : FieldRead F seen d) (hstep : SectionStep reads d d') :
    FieldRead F (if reads then d.disk.global else seen) d' := by
  cases hstep with
  | quiet hreads hsame hbuf _ =>
    subst hreads
    exact ⟨(hF.mask _ _ hsame.mask.1 hsame.mask.2).trans h.pending, by rw [hbuf]; exact h.stored⟩
  | read hreads hsame hbuf _ _ =>
    subst hreads
    exact ⟨(hF.mask _ _ hsame.mask.1 hsame.mask.2).trans h.pending, by rw [hbuf]; rfl⟩
  | updated hreads _ _ _ _ hfield =>
    subst hreads
    obtain ⟨hbit, hleave, -⟩ := hfield hF
    refine ⟨Bool.eq_false_iff.2 fun hp => ?_, (hleave h.pending).trans h.stored⟩
    exact absurd ((hbit hp).1.symm.trans h.pending) (by decide)
  | written hreads _ _ hsf hbuf _ =>
    subst hreads
    exact ⟨by rw [hsf]; exact h.pending, by rw [hbuf]; exact h.stored⟩

/-- The section such a host writes has the field as it was on disk, if that is the section it has read. -/
theorem FieldRead.disk (h : FieldRead F seen d) (hstep : SectionStep reads d d')
    (hok : d.pc.isWritingGlobal = true → d'.pc.isWritingGlobal = false → d.disk.global = seen) :
    F.stored d'.disk.global = F.stored d.disk.global := by
  cases hstep with
  | quiet _ _ _ hdisk => rw [hdisk]
  | read _ _ _ hdisk _ => rw [hdisk]
  | updated _ _ hdisk _ _ _ => rw [hdisk]
  | written _ hpc hafter _ _ hdisk =>
    rcases hdisk with ⟨hdisk, -⟩ | ⟨hdisk, -⟩
    · rw [hdisk]
    · rw [hdisk, h.stored, hok hpc hafter]

/-- The host that changes the field enters `sf_writeglobal` with it pending. -/
theorem FieldOwned.next (hF : F.Merged) (h : FieldOwned F v since d.disk.global d) (hstep : SectionStep reads d d')
    (hown : d.sf.modifiedMask.master = true ∨ d.sf.modifiedMask.poolState = true → F.pending d.sf.modifiedMask = true) :
    FieldOwned F v since d'.disk.global d' := by
  cases hstep with
  | quiet _ hsame hbuf hdisk =>
    refine ⟨fun hp => ?_, fun hpc => ?_, by rw [hsame.writes]; exact h.counted, fun hw => ?_⟩
    · rw [hF.mask _ _ hsame.mask.1 hsame.mask.2] at hp
      exact (hF.object _ _ hsame.master hsame.poolState).trans (h.value hp)
    · rw [hbuf]
      exact h.buffered (hsame.writing ▸ hpc)
    · rw [hdisk]
      exact h.onDisk (hw.same hsame.writes.symm)
  | read _ hsame _ hdisk hnot =>
    refine ⟨fun hp => ?_, fun hpc => ?_, by rw [hsame.writes]; exact h.counted, fun hw => ?_⟩
    · rw [hF.mask _ _ hsame.mask.1 hsame.mask.2] at hp
      exact (hF.object _ _ hsame.master hsame.poolState).trans (h.value hp)
    · rw [hsame.writing, hnot] at hpc
      cases hpc
    · rw [hdisk]
      exact h.onDisk (hw.same hsame.writes.symm)
  | updated _ _ hdisk hwrites hbits hfield =>
    obtain ⟨hbit, -, hcarry⟩ := hfield hF
    refine ⟨fun hp => ?_, fun hpc => ?_, by rw [hwrites]; exact h.counted, fun hw => ?_⟩
    · exact (hbit hp).2.trans (h.value (hbit hp).1)
    · have hp := hown (hbits hpc)
      exact (hcarry hp hpc).trans (h.value hp)
    · rw [hdisk]
      exact h.onDisk (hw.same hwrites.symm)
  | written _ hpc hafter hsf _ hdisk =>
    refine ⟨fun hp => ?_, fun hpc' => ?_, ?_, fun hw => ?_⟩
    · rw [hsf] at hp ⊢
      exact h.value hp
    · rw [hafter] at hpc'
      cases hpc'
    · rcases hdisk with ⟨-, hwrites⟩ | ⟨-, hwrites⟩ <;> rw [hwrites]
      · exact h.counted
      · exact le_trans h.counted (Nat.le_succ _)
    · rcases hdisk with ⟨hdisk, hwrites⟩ | ⟨hdisk, -⟩ <;> rw [hdisk]
      · exact h.onDisk (hw.same hwrites.symm)
      · exact h.buffered hpc

/-! ## The field in the pool -/

structure FieldHeld (F : GlobalField α) (disk : SfGlobal) (seen : Nat → SfGlobal) (daemon : Nat → SfWorld)
    (r : Option (GlobalRequest α)) : Prop where
  others : ∀ k, GlobalRequest.isFrom k r = false → FieldRead F (seen k) (daemon k)
  owner : ∀ q, r = some q → FieldOwned F q.value q.since disk (daemon q.host)

theorem GlobalRequest.isFrom_iff {k : Nat} {r : Option (GlobalRequest α)} :
    isFrom k r = true ↔ ∃ q, r = some q ∧ q.host = k := by
  cases r <;> simp [isFrom]

theorem FieldHeld.daemon {c : HaConfig} {w : GlobalPool} {r : Option (GlobalRequest α)} {k : Nat} {a : SfAction}
    (hF : F.Merged) (h : FieldHeld F w.disk.global w.seen w.daemon r) (hk : k < c.hostnum)
    (hn : sfNext (c.at k hk) (w.view k) a = some d) (hpeer : a.isPeer = false)
    (hown : GlobalRequest.isFrom k r = true → (w.daemon k).sf.modifiedMask.master = true ∨
      (w.daemon k).sf.modifiedMask.poolState = true → F.pending (w.daemon k).sf.modifiedMask = true)
    (hok : (w.daemon k).pc.isWritingGlobal = true → d.pc.isWritingGlobal = false → w.disk.global = w.seen k) :
    FieldHeld F d.disk.global (if readsGlobal (w.view k) a then Function.update w.seen k w.disk.global else w.seen)
      (Function.update w.daemon k d) r := by
  have hstep := sfNext_section hn hpeer
  have hread : GlobalRequest.isFrom k r = false → FieldRead F (w.seen k) (w.view k) := fun hj =>
    ⟨(h.others k hj).pending, (h.others k hj).stored⟩
  constructor
  · intro j hj
    by_cases hjk : j = k
    · subst hjk
      rw [Function.update_self]
      have hnext := (hread hj).next hF hstep
      cases hr : readsGlobal (w.view j) a <;> rw [hr] at hnext
      · exact hnext
      · rw [if_pos rfl, Function.update_self]
        exact hnext
    · have hseen : (if readsGlobal (w.view k) a then Function.update w.seen k w.disk.global else w.seen) j = w.seen j := by
        split
        · exact Function.update_of_ne hjk ..
        · rfl
      rw [hseen, Function.update_of_ne hjk]
      exact h.others j hj
  · intro q hq
    have howner := h.owner q hq
    by_cases hqk : q.host = k
    · subst hqk
      rw [Function.update_self]
      refine FieldOwned.next (d := w.view q.host) hF ?_ hstep (hown (GlobalRequest.isFrom_iff.2 ⟨q, hq, rfl⟩))
      exact ⟨howner.value, howner.buffered, howner.counted, howner.onDisk⟩
    · rw [Function.update_of_ne hqk]
      have hfrom : GlobalRequest.isFrom k r = false := by
        rw [hq]
        simpa [GlobalRequest.isFrom] using hqk
      have hdisk := (hread hfrom).disk hstep hok
      exact ⟨howner.value, howner.buffered, howner.counted, fun hw => hdisk.trans (howner.onDisk hw)⟩

variable {disk : SfGlobal} {seen : Nat → SfGlobal} {daemon : Nat → SfWorld} {k : Nat} {sf : ComDataSf}

/-- A request for the field, by a host that is not writing the section. -/
theorem FieldHeld.request (h : FieldHeld F disk seen daemon none) (hnot : (daemon k).pc.isWritingGlobal = false)
    (hv : F.value sf = v) :
    FieldHeld F disk seen (Function.update daemon k { daemon k with sf := sf })
      (some ⟨k, v, (daemon k).globalWrites.length⟩) := by
  constructor
  · intro j hj
    have hjk : j ≠ k := by
      rintro rfl
      simp [GlobalRequest.isFrom] at hj
    rw [Function.update_of_ne hjk]
    exact h.others j rfl
  · intro q hq
    cases hq
    dsimp only
    rw [Function.update_self]
    refine ⟨fun _ => hv, fun hpc => absurd (hnot.symm.trans hpc) (by decide), le_rfl, ?_⟩
    rintro ⟨g, hmem, -⟩
    rw [Nat.sub_self] at hmem
    cases hmem

/-- A request for the other field. -/
theorem FieldHeld.other {r : Option (GlobalRequest α)} (h : FieldHeld F disk seen daemon r)
    (hv : F.value sf = F.value (daemon k).sf) (hp : F.pending sf.modifiedMask = F.pending (daemon k).sf.modifiedMask) :
    FieldHeld F disk seen (Function.update daemon k { daemon k with sf := sf }) r := by
  constructor
  · intro j hj
    obtain ⟨hpending, hstored⟩ := h.others j hj
    by_cases hjk : j = k
    · subst hjk
      rw [Function.update_self]
      exact ⟨hp.trans hpending, hstored⟩
    · rw [Function.update_of_ne hjk]
      exact ⟨hpending, hstored⟩
  · intro q hq
    obtain ⟨hvalue, hbuf, hcount, hdisk⟩ := h.owner q hq
    by_cases hqk : q.host = k
    · subst hqk
      rw [Function.update_self]
      exact ⟨fun he => hv.trans (hvalue (hp.symm.trans he)), hbuf, hcount, hdisk⟩
    · rw [Function.update_of_ne hqk]
      exact ⟨hvalue, hbuf, hcount, hdisk⟩

end

/-! ## Both updates -/

/-- Both fields are held, by two hosts, and nobody else writes the section. -/
structure GlobalPool.Held (w : GlobalPool) : Prop where
  master : FieldHeld masterField w.disk.global w.seen w.daemon w.master
  poolState : FieldHeld poolStateField w.disk.global w.seen w.daemon w.poolState
  distinct : ∀ k, GlobalRequest.isFrom k w.master = true → GlobalRequest.isFrom k w.poolState = false
  writers : ∀ k, (w.daemon k).pc.isWritingGlobal = true →
    GlobalRequest.isFrom k w.master = true ∨ GlobalRequest.isFrom k w.poolState = true

/-- The section on disk is still the one the host has read when the host writes it. -/
def WritesOnCurrent (w : GlobalPool) : GlobalAction → Prop
  | .daemon k (.writeGlobal _) => w.disk.global = w.seen k
  | _ => True

section

variable {c : HaConfig} {w w' : GlobalPool}

/-- Only `sf_writeglobal` ends at `sf_writeglobal`. -/
theorem sfNext_writes {d d' : SfWorld} {a : SfAction} (hn : sfNext c d a = some d') (hpc : d.pc.isWritingGlobal = true)
    (hafter : d'.pc.isWritingGlobal = false) : ∃ status, a = .writeGlobal status := by
  by_contra hother
  cases sfNext_field poolStateField_merged hn fun status ha => hother ⟨status, ha⟩ with
  | quiet _ _ _ _ hstay =>
    rw [(hstay hpc).1, hpc] at hafter
    cases hafter
  | taken hnot _ _ _ =>
    rw [hnot] at hpc
    cases hpc

theorem GlobalPool.Held.daemon {k : Nat} {a : SfAction} (h : w.Held) (hok : WritesOnCurrent w (.daemon k a))
    (hn : globalNext c w (.daemon k a) = some w') : w'.Held := by
  simp only [globalNext] at hn
  split at hn
  · rename_i hcond
    obtain ⟨hk, hpeer⟩ := hcond
    obtain ⟨d, hd, rfl⟩ := Option.map_eq_some_iff.1 hn
    have hcurrent : (w.daemon k).pc.isWritingGlobal = true → d.pc.isWritingGlobal = false → w.disk.global = w.seen k := by
      intro hpc hafter
      obtain ⟨status, rfl⟩ := sfNext_writes hd hpc hafter
      exact hok
    have hmaster : GlobalRequest.isFrom k w.master = true → (w.daemon k).sf.modifiedMask.master = true ∨
        (w.daemon k).sf.modifiedMask.poolState = true → (w.daemon k).sf.modifiedMask.master = true := by
      intro hfrom hp
      have hnone : (w.daemon k).sf.modifiedMask.poolState = false := (h.poolState.others k (h.distinct k hfrom)).pending
      rw [hnone] at hp
      simpa using hp
    have hpool : GlobalRequest.isFrom k w.poolState = true → (w.daemon k).sf.modifiedMask.master = true ∨
        (w.daemon k).sf.modifiedMask.poolState = true → (w.daemon k).sf.modifiedMask.poolState = true := by
      intro hfrom hp
      have hnot : GlobalRequest.isFrom k w.master = false :=
        Bool.eq_false_iff.2 fun hm => absurd ((h.distinct k hm).symm.trans hfrom) (by decide)
      have hnone : (w.daemon k).sf.modifiedMask.master = false := (h.master.others k hnot).pending
      rw [hnone] at hp
      simpa using hp
    refine ⟨h.master.daemon masterField_merged hk hd hpeer hmaster hcurrent,
      h.poolState.daemon poolStateField_merged hk hd hpeer hpool hcurrent, h.distinct, fun j hpc => ?_⟩
    by_cases hjk : j = k
    · subst hjk
      dsimp only at hpc
      rw [Function.update_self] at hpc
      cases sfNext_section hd hpeer with
      | quiet _ hsame _ _ => exact h.writers j (hsame.writing ▸ hpc)
      | read _ hsame _ _ _ => exact h.writers j (hsame.writing ▸ hpc)
      | updated _ _ _ _ hbits _ =>
        -- a host with nothing requested has nothing pending
        by_contra hnone
        simp only [not_or, Bool.not_eq_true] at hnone
        rcases hbits hpc with hbit | hbit
        · exact absurd ((h.master.others j hnone.1).pending.symm.trans hbit) (by decide)
        · exact absurd ((h.poolState.others j hnone.2).pending.symm.trans hbit) (by decide)
      | written _ _ hafter _ _ _ =>
        rw [hafter] at hpc
        cases hpc
    · dsimp only at hpc
      rw [Function.update_of_ne hjk] at hpc
      exact h.writers j hpc
  · cases hn

/-- A host that has requested nothing is not writing the section. -/
theorem GlobalPool.Held.idle {k : Nat} (h : w.Held) (hm : GlobalRequest.isFrom k w.master = false)
    (hp : GlobalRequest.isFrom k w.poolState = false) : (w.daemon k).pc.isWritingGlobal = false := by
  refine Bool.eq_false_iff.2 fun hpc => ?_
  rcases h.writers k hpc with hw | hw
  · exact absurd (hm.symm.trans hw) (by decide)
  · exact absurd (hp.symm.trans hw) (by decide)

theorem writing_request {daemon : Nat → SfWorld} {k j : Nat} {sf : ComDataSf} :
    (Function.update daemon k { daemon k with sf := sf } j).pc = (daemon j).pc := by
  by_cases hjk : j = k
  · subst hjk
    rw [Function.update_self]
  · rw [Function.update_of_ne hjk]

theorem GlobalPool.Held.next {a : GlobalAction} (h : w.Held) (hok : WritesOnCurrent w a) (hn : globalNext c w a = some w') :
    w'.Held := by
  cases a with
  | daemon k a => exact h.daemon hok hn
  | setMaster k master =>
    simp only [globalNext] at hn
    split at hn
    · rename_i hcond
      obtain ⟨-, hnone, hfrom⟩ := hcond
      rw [Option.isNone_iff_eq_none] at hnone
      cases hn
      have hmaster := h.master
      rw [hnone] at hmaster
      refine ⟨hmaster.request (h.idle (by rw [hnone]; rfl) hfrom) rfl, h.poolState.other rfl rfl, fun j hj => ?_,
        fun j hpc => ?_⟩
      · obtain ⟨q, hq, rfl⟩ := GlobalRequest.isFrom_iff.1 hj
        cases hq
        exact hfrom
      · rw [writing_request] at hpc
        rcases h.writers j hpc with hw | hw
        · rw [hnone] at hw
          cases hw
        · exact .inr hw
    · cases hn
  | setPoolState k poolState =>
    simp only [globalNext] at hn
    split at hn
    · rename_i hcond
      obtain ⟨-, hnone, hfrom⟩ := hcond
      rw [Option.isNone_iff_eq_none] at hnone
      cases hn
      have hpool := h.poolState
      rw [hnone] at hpool
      refine ⟨h.master.other rfl rfl, hpool.request (h.idle hfrom (by rw [hnone]; rfl)) rfl, fun j hj => ?_,
        fun j hpc => ?_⟩
      · refine Bool.eq_false_iff.2 fun hp => ?_
        obtain ⟨q, hq, rfl⟩ := GlobalRequest.isFrom_iff.1 hp
        cases hq
        exact absurd (hfrom.symm.trans hj) (by decide)
      · rw [writing_request] at hpc
        rcases h.writers j hpc with hw | hw
        · exact .inl hw
        · rw [hnone] at hw
          cases hw
    · cases hn

theorem GlobalPool.Initial.held (h : w.Initial) : w.Held := by
  refine ⟨⟨fun k _ => ⟨(h.quiet k).1, by rw [h.seen]⟩, fun q hq => ?_⟩, ⟨fun k _ => ⟨(h.quiet k).2.1, by rw [h.seen]⟩,
    fun q hq => ?_⟩, fun k hk => ?_, fun k hk => absurd ((h.quiet k).2.2.symm.trans hk) (by decide)⟩
  · rw [h.master] at hq
    cases hq
  · rw [h.poolState] at hq
    cases hq
  · rw [h.master] at hk
    cases hk

end

/-- Both updates are on disk once both writes are done, in every run in which a host writes the section only
while the one on disk is the one it has read. -/
theorem updates_do_not_overwrite {c : HaConfig} {w : GlobalPool} (h : (globalMachine c).Reach WritesOnCurrent w)
    {m : GlobalRequest MtcUuid} (hm : w.master = some m) (hmw : Written masterField m.value m.since (w.daemon m.host))
    {s : GlobalRequest PoolState} (hs : w.poolState = some s)
    (hsw : Written poolStateField s.value s.since (w.daemon s.host)) :
    w.disk.global = ⟨s.value, m.value⟩ := by
  have hinv : w.Held := h.inv (I := GlobalPool.Held) (fun _ => GlobalPool.Initial.held) fun _ _ _ hs hok hn => hs.next hok hn
  have hmaster : w.disk.global.master = m.value := (hinv.master.owner m hm).onDisk hmw
  have hpool : w.disk.global.poolState = s.value := (hinv.poolState.owner s hs).onDisk hsw
  rw [← hmaster, ← hpool]

/-! ## Two hosts -/

def globalPair : HaConfig := .pair

/-- The State-File of a pool that has not started yet. -/
def initDisk : SfImage := { activeDisk with global := ⟨sfStateInit, []⟩ }

def globalPairPool : GlobalPool where
  disk := initDisk
  daemon k := SfWorld.initial k 0 initDisk initDisk 0
  seen _ := initDisk.global
  master := none
  poolState := none

theorem globalPairPool_initial : globalPairPool.Initial := ⟨rfl, rfl, fun _ => ⟨rfl, rfl, rfl⟩, fun _ => rfl⟩

/-- Every access of the step succeeds. -/
def GlobalAction.succeeds : GlobalAction → Bool
  | .daemon _ (.write status) | .daemon _ (.read status) | .daemon _ (.writeGlobal status) => status = .success
  | _ => true

instance (w : GlobalPool) (a : GlobalAction) : Decidable (WritesOnCurrent w a) := by
  unfold WritesOnCurrent; split <;> infer_instance

/-- A cycle of host `k` that only reads, up to the update of the objects. -/
def readsPair (k : Nat) : List GlobalAction :=
  [.daemon k (.objects .initial .initial ⟨true, true, false⟩ (lmInitializeLmFields k) .empty false), .daemon k .begin,
    .daemon k (.read .success), .daemon k (.read .success), .daemon k (.read .success), .daemon k (.read .success)]

def updatesPair (k : Nat) : List GlobalAction := [.daemon k .update, .daemon k (.writeGlobal .success)]

/-- Both updates are made and both writes are done. -/
def bothWritten (w : GlobalPool) : Bool :=
  decide (w.master = some ⟨0, ['7'], 0⟩) && (decide (w.poolState = some ⟨1, sfStateActive, 0⟩) &&
    (decide (Written masterField ['7'] 0 (w.daemon 0)) && decide (Written poolStateField sfStateActive 0 (w.daemon 1))))

/-- One host after the other. -/
theorem updates_do_not_overwrite_turns : ∃ w, (globalMachine globalPair).Reachable w ∧
    w.disk.global = ⟨sfStateActive, ['7']⟩ := by
  have hrun : ∃ w, (globalMachine globalPair).Reach WritesOnCurrent w ∧ bothWritten w = true :=
    Machine.reach_of_check globalPairPool_initial
      ([.setMaster 0 ['7'], .setPoolState 1 sfStateActive] ++ readsPair 0 ++ updatesPair 0 ++ readsPair 1 ++ updatesPair 1)
      _ (by decide +kernel)
  obtain ⟨w, hw, hp⟩ := hrun
  simp only [bothWritten, Bool.and_eq_true, decide_eq_true_eq] at hp
  obtain ⟨hm, hs, hmw, hsw⟩ := hp
  exact ⟨w, hw.mono fun _ _ _ => trivial, updates_do_not_overwrite hw hm hmw hs hsw⟩

/-- Both hosts read before either writes, and the second write, for the master, takes the pool state back to INIT. -/
theorem pool_state_is_overwritten : ∃ w, (globalMachine globalPair).Reach (fun _ a => a.succeeds = true) w ∧
    w.master = some ⟨0, ['7'], 0⟩ ∧ Written masterField ['7'] 0 (w.daemon 0) ∧
    w.poolState = some ⟨1, sfStateActive, 0⟩ ∧ Written poolStateField sfStateActive 0 (w.daemon 1) ∧
    w.disk.global = ⟨sfStateInit, ['7']⟩ := by
  have hrun : ∃ w, (globalMachine globalPair).Reach (fun _ a => a.succeeds = true) w ∧
      (bothWritten w && decide (w.disk.global = ⟨sfStateInit, ['7']⟩)) = true :=
    Machine.reach_of_check globalPairPool_initial
      ([.setMaster 0 ['7'], .setPoolState 1 sfStateActive] ++ readsPair 0 ++ readsPair 1 ++ updatesPair 1 ++ updatesPair 0)
      _ (by decide +kernel)
  obtain ⟨w, hw, hp⟩ := hrun
  simp only [bothWritten, Bool.and_eq_true, decide_eq_true_eq] at hp
  obtain ⟨⟨hm, hs, hmw, hsw⟩, hdisk⟩ := hp
  exact ⟨w, hw, hm, hmw, hs, hsw, hdisk⟩

end Xha
