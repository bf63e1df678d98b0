/-
The fields of the global section that a host can change, `master` and `pool_state` (statefile.c): a request
waits in the object under its mask bit, `readsf` moves it into the buffer, and `sf_writeglobal` takes the
buffer to the disk.
-/
import Xha.StateFile.Machine

namespace Xha

open Loop

/-- `sf_writeglobal` is the next access of the State-File thread. -/
def SfPc.isWritingGlobal : SfPc → Bool
  | .writingGlobal => true
  | _ => false

/-- The next step is the locked part of a `readsf` that read every section. -/
def SfPc.hasReadAll (n : Nat) : SfPc → Bool
  | .updating io => io.allRead n
  | _ => false

/-- A field of the global section: its value in the object, its mask bit, and its value in a section. -/
structure GlobalField (α : Type) where
  value : ComDataSf → α
  pending : ModifiedMask → Bool
  stored : SfGlobal → α

def masterField : GlobalField MtcUuid := ⟨(·.master), (·.master), (·.master)⟩

def poolStateField : GlobalField PoolState := ⟨(·.poolState), (·.poolState), (·.poolState)⟩

/-- What `readsf` does to a field: a pending value goes to the buffer, which is then written, and the bit is
cleared either way; otherwise the value becomes that of the buffer. -/
structure GlobalField.Merged {α : Type} (F : GlobalField α) : Prop where
  update : ∀ file psf, F.pending (updateGlobal file psf).2.2.modifiedMask = false ∧
    (F.pending psf.modifiedMask = true → (updateGlobal file psf).1 = .pendingWrite ∧
      F.stored (updateGlobal file psf).2.1.global = F.value psf ∧ F.value (updateGlobal file psf).2.2 = F.value psf) ∧
    (F.pending psf.modifiedMask = false → F.stored (updateGlobal file psf).2.1.global = F.stored file.global)
  /-- The other fields of the object do not matter. -/
  object : ∀ psf psf' : ComDataSf, psf'.master = psf.master → psf'.poolState = psf.poolState → F.value psf' = F.value psf
  mask : ∀ m m' : ModifiedMask, m'.master = m.master → m'.poolState = m.poolState → F.pending m' = F.pending m

theorem masterField_merged : masterField.Merged where
  update file psf := by
    unfold updateGlobal masterField
    cases hm : psf.modifiedMask.master <;> cases hp : psf.modifiedMask.poolState <;> simp [hm, hp]
  object _ _ hm _ := hm
  mask _ _ hm _ := hm

theorem poolStateField_merged : poolStateField.Merged where
  update file psf := by
    unfold updateGlobal poolStateField
    cases hm : psf.modifiedMask.master <;> cases hp : psf.modifiedMask.poolState <;> simp [hm, hp]
  object _ _ _ hp := hp
  mask _ _ _ hp := hp

/-- What a step other than `sf_writeglobal` can do to a field on its way from the object to the disk: only
the update of the objects moves it on. -/
inductive FieldStep {α : Type} (F : GlobalField α) (me : Nat) (w w' : SfWorld) : Prop
  | quiet : F.value w'.sf = F.value w.sf → F.pending w'.sf.modifiedMask = F.pending w.sf.modifiedMask →
      w'.sf.timeLastSf me = w.sf.timeLastSf me → w'.globalWrites = w.globalWrites →
      (w.pc.isWritingGlobal = true → w'.pc = w.pc ∧ w'.stateFile.global = w.stateFile.global) → FieldStep F me w w'
  | taken : w.pc.isWritingGlobal = false → w'.globalWrites = w.globalWrites → F.pending w'.sf.modifiedMask = false →
      (F.pending w.sf.modifiedMask = true → w'.pc.isWritingGlobal = true ∧
        F.stored w'.stateFile.global = F.value w.sf ∧ F.value w'.sf = F.value w.sf) → FieldStep F me w w'

section

variable {α : Type} {F : GlobalField α} {c : HaConfig} {w w' : SfWorld}

/-- A `readsf` that read everything, at the field. -/
theorem GlobalField.Merged.updated (hF : F.Merged) (c : HaConfig) (w : SfWorld) :
    let r := updatedObjects c w
    F.pending r.2.2.modifiedMask = false ∧
      (F.pending w.sf.modifiedMask = true → r.1 = .pendingWrite ∧ F.stored r.2.1.global = F.value w.sf ∧
        F.value r.2.2 = F.value w.sf) ∧
      (F.pending w.sf.modifiedMask = false → F.stored r.2.1.global = F.stored w.stateFile.global) := by
  obtain ⟨hmask, hpool, hmaster, -, -⟩ := updateHosts_spec c w
  unfold updatedObjects
  generalize forRange c.hostnum w.sf (updateHost c.myIndex w.stateFile w.sfvar.hoststat w.sm) = psf at hmask hpool hmaster ⊢
  have hvalue : F.value { psf with sfAccess := true } = F.value w.sf := hF.object _ _ hmaster hpool
  have hupdate := hF.update w.stateFile { psf with sfAccess := true }
  rw [hvalue] at hupdate
  rw [← hmask]
  exact hupdate

theorem sfNext_field (hF : F.Merged) {a : SfAction} (hn : sfNext c w a = some w') (ha : ∀ status, a ≠ .writeGlobal status) :
    FieldStep F c.myIndex w w' := by
  cases sfNext_move hn with
  | beginWrite hpc | beginRead hpc | globalSkipped _ _ _ hpc | globalRead _ _ hpc | globalUnread _ _ _ hpc
  | hostSkipped _ _ _ _ hpc | hostRead _ _ _ hpc | hostUnread _ _ _ _ hpc | lastAttempt _ _ _ _ hpc
  | nextAttempt _ _ _ _ hpc | written _ _ hpc =>
    exact .quiet rfl rfl rfl rfl fun he => by rw [hpc] at he; cases he
  | copied _ hpc | unwritten _ _ _ hpc =>
    exact .quiet (hF.object _ _ rfl rfl) (hF.mask _ _ rfl rfl) rfl rfl fun he => by rw [hpc] at he; cases he
  | readFailed _ _ _ _ hpc =>
    exact .quiet (hF.object _ _ rfl rfl) rfl rfl rfl fun he => by rw [hpc] at he; cases he
  | updated io hpc _ hstatus =>
    obtain ⟨hclear, hcarry, -⟩ := hF.updated c w
    refine .taken (by rw [hpc]; rfl) rfl hclear fun hp => ?_
    rw [(hcarry hp).1] at hstatus
    cases hstatus
  | updatedPending io hpc =>
    obtain ⟨hclear, hcarry, -⟩ := hF.updated c w
    exact .taken (by rw [hpc]; rfl) rfl hclear fun hp => ⟨rfl, (hcarry hp).2⟩
  | globalWritten | globalUnwritten => exact absurd rfl (ha _)
  | beginNothing | tick | peerHost | peerGlobal => exact .quiet rfl rfl rfl rfl fun _ => ⟨rfl, rfl⟩
  | objects => exact .quiet (hF.object _ _ rfl rfl) rfl rfl rfl fun _ => ⟨rfl, rfl⟩

/-- Only the locked part of a `readsf` that read everything touches the object's value and its mask bit. -/
theorem sfNext_untaken (hF : F.Merged) {a : SfAction} (hn : sfNext c w a = some w')
    (ha : ¬ (a = .update ∧ w.pc.hasReadAll c.hostnum = true)) :
    F.value w'.sf = F.value w.sf ∧ F.pending w'.sf.modifiedMask = F.pending w.sf.modifiedMask := by
  cases sfNext_move hn with
  | copied | unwritten => exact ⟨hF.object _ _ rfl rfl, hF.mask _ _ rfl rfl⟩
  | objects | readFailed => exact ⟨hF.object _ _ rfl rfl, rfl⟩
  | updated io hpc hall | updatedPending io hpc hall => exact absurd ⟨rfl, by rw [hpc]; exact hall⟩ ha
  | _ => exact ⟨rfl, rfl⟩

/-- That section clears the mask bit, before anything is written. -/
theorem sfNext_taken (hF : F.Merged) (hn : sfNext c w .update = some w') (hread : w.pc.hasReadAll c.hostnum = true) :
    F.pending w'.sf.modifiedMask = false ∧ w'.globalWrites = w.globalWrites := by
  cases sfNext_move hn with
  | updated | updatedPending => exact ⟨(hF.updated c w).1, rfl⟩
  | readFailed io _ _ _ hpc hall =>
    rw [hpc] at hread
    exact absurd hread hall

/-- The host only adds to what it has written. -/
theorem sfNext_globalWrites {a : SfAction} (hn : sfNext c w a = some w') :
    w'.globalWrites = w.globalWrites ∨ ∃ g, w'.globalWrites = g :: w.globalWrites := by
  cases sfNext_move hn with
  | globalWritten => exact .inr ⟨_, rfl⟩
  | _ => exact .inl rfl

end

/-! ## What the host has written -/

section

variable {α : Type} {F : GlobalField α} {v : α} {since : Nat} {w w' : SfWorld}

/-- This host has written the value to the global section after its first `since` writes. -/
def Written (F : GlobalField α) (v : α) (since : Nat) (w : SfWorld) : Prop :=
  ∃ g ∈ w.globalWrites.take (w.globalWrites.length - since), F.stored g = v

instance [DecidableEq α] (F : GlobalField α) (v : α) (since : Nat) (w : SfWorld) : Decidable (Written F v since w) := by
  unfold Written; infer_instance

theorem Written.more {g : SfGlobal} (hsince : since ≤ w.globalWrites.length) (hw : w'.globalWrites = g :: w.globalWrites)
    (h : F.stored g = v ∨ Written F v since w) : Written F v since w' := by
  have htake : w'.globalWrites.take (w'.globalWrites.length - since) =
      g :: w.globalWrites.take (w.globalWrites.length - since) := by
    rw [hw, List.length_cons, Nat.succ_sub hsince, List.take_succ_cons]
  unfold Written
  rw [htake]
  rcases h with hg | ⟨g', hmem, hg'⟩
  · exact ⟨g, List.mem_cons_self, hg⟩
  · exact ⟨g', List.mem_cons_of_mem _ hmem, hg'⟩

theorem Written.same (h : Written F v since w) (hw : w'.globalWrites = w.globalWrites) : Written F v since w' := by
  unfold Written
  rw [hw]
  exact h

/-- What the host has written it has written from then on. -/
theorem Written.next {c : HaConfig} {a : SfAction} (hsince : since ≤ w.globalWrites.length) (h : Written F v since w)
    (hn : sfNext c w a = some w') : Written F v since w' := by
  rcases sfNext_globalWrites hn with hw | ⟨g, hw⟩
  · exact h.same hw
  · exact Written.more hsince hw (.inr h)

end

end Xha
