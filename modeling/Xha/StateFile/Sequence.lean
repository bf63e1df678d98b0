/-
The sequence number of the local record, by which the other hosts see that it is written: it is seeded with the
number on disk at the first read, and used by `write_hostspecific` before it is incremented. The number on disk is the
seed and the writes since then, so a write changes it but for the first (`write_is_visible_iff`).
-/
import Xha.Lib.Wrap
import Xha.StateFile.Excluded

namespace Xha

open Transition Wrap

/-! ## Runs and their writes -/

/-- The copies of `write_hostspecific` since the last successful write, and whether there has been one. -/
structure WriteHistory where
  copies : Nat
  written : Bool
  deriving DecidableEq

def WriteHistory.none : WriteHistory := ⟨0, false⟩

def WriteHistory.next (g : WriteHistory) : SfAction → WriteHistory
  | .copy => { g with copies := g.copies + 1 }
  | .write .success => ⟨0, true⟩
  | _ => g

theorem WriteHistory.next_failed {status : SfStatus} (h : status ≠ .success) (g : WriteHistory) :
    g.next (.write status) = g := by
  cases status with
  | success => exact absurd rfl h
  | _ => rfl

/-- How far the counter is ahead of the number on disk. -/
def WriteHistory.ahead (g : WriteHistory) : Nat := if g.written then g.copies + 1 else g.copies

theorem WriteHistory.ahead_copy (g : WriteHistory) : (g.next .copy).ahead = g.ahead + 1 := by
  obtain ⟨copies, written⟩ := g
  cases written <;> rfl

/-- A daemon, and what its writes have come to. -/
structure SeqWorld where
  daemon : SfWorld
  history : WriteHistory

/-- The daemon starts on any State-File, at any time. -/
def seqMachine (c : HaConfig) : Machine SeqWorld SfAction where
  init w := ∃ clock disk buffer sequence, w = ⟨SfWorld.initial c.myIndex clock disk buffer sequence, .none⟩
  next w a := (sfNext c w.daemon a).map fun d => ⟨d, w.history.next a⟩

/-! ## The counter -/

/-- The counter is ahead of the number on disk by the copies; it is seeded before anything is written. -/
structure SeqInv (me : Nat) (w : SfWorld) (g : WriteHistory) : Prop where
  unseeded : (w.sfvar.hoststat me).readonce = false → g = .none
  seeded : (w.sfvar.hoststat me).readonce = true →
    w.sfvar.sequence = (w.disk.host me).sequence + BitVec.ofNat 32 g.ahead
  readOnce : w.readOnce = true → (w.sfvar.hoststat me).readonce = true
  access : ∀ io, w.pc.iostatus = some io → io.hostSection me = .success → (w.sfvar.hoststat me).readonce = true
  copying : ∀ r, w.pc = .copying r → (w.sfvar.hoststat me).readonce = true
  writing : ∀ r p, w.pc = .writing r p → (w.sfvar.hoststat me).readonce = true ∧ 1 ≤ g.copies ∧
    w.sfvar.sequence = (w.stateFile.host me).sequence + 1

theorem SeqInv.initial (me : Nat) (clock : MtcClock) (disk buffer : SfImage) (sequence : MtcU32) :
    SeqInv me (SfWorld.initial me clock disk buffer sequence) .none where
  unseeded _ := rfl
  seeded h := by cases h
  readOnce h := by cases h
  access _ h := by cases h
  copying _ h := by cases h
  writing _ _ h := by cases h

section

variable {c : HaConfig} {w w' : SfWorld} {g : WriteHistory}

/-- A step that leaves the counter and the local record on disk alone. -/
theorem SeqInv.keep (h : SeqInv c.myIndex w g) (hvar : w'.sfvar.sequence = w.sfvar.sequence)
    (hstat : (w'.sfvar.hoststat c.myIndex).readonce = (w.sfvar.hoststat c.myIndex).readonce)
    (hdisk : (w'.disk.host c.myIndex).sequence = (w.disk.host c.myIndex).sequence)
    (honce : w'.readOnce = true → (w.sfvar.hoststat c.myIndex).readonce = true)
    (haccess : ∀ io, w'.pc.iostatus = some io → io.hostSection c.myIndex = .success →
      (w.sfvar.hoststat c.myIndex).readonce = true)
    (hcopying : ∀ r, w'.pc = .copying r → (w.sfvar.hoststat c.myIndex).readonce = true)
    (hwriting : ∀ r p, w'.pc ≠ .writing r p) : SeqInv c.myIndex w' g where
  unseeded he := h.unseeded (hstat ▸ he)
  seeded he := by rw [hvar, hdisk]; exact h.seeded (hstat ▸ he)
  readOnce he := hstat.trans (honce he)
  access io he hs := hstat.trans (haccess io he hs)
  copying r he := hstat.trans (hcopying r he)
  writing r p he := absurd he (hwriting r p)

theorem HostStat.read_readonce (s : HostStat) (now : MtcClock) (sequence : MtcU32) :
    (s.read now sequence).readonce = true := by
  unfold HostStat.read
  dsimp only
  split
  · rfl
  · rename_i h
    rw [Bool.not_eq_false] at h
    split
    · exact h
    · exact h

/-- A `readsf` that fails does not count as one. -/
theorem updateObjects_readOnce {io : IoStatus} (hpc : w.pc = .updating io) (hall : io.allRead c.hostnum ≠ true)
    (hn : updateObjects c w = some w') : w'.readOnce = true → w.readOnce = true := by
  unfold updateObjects at hn
  rw [hpc] at hn
  dsimp only at hn
  rw [if_neg hall] at hn
  split at hn <;> cases hn <;> simp

/-- The first read of the local record seeds the counter; later ones leave it. -/
theorem SeqInv.readLocal (h : SeqInv c.myIndex w g) (hw : w' = { readHostspecific c.myIndex c.myIndex w with pc := w'.pc })
    (hwriting : ∀ r p, w'.pc ≠ .writing r p) : SeqInv c.myIndex w' g := by
  have hread : (w'.sfvar.hoststat c.myIndex).readonce = true := by
    rw [hw]
    simp only [readHostspecific, Function.update_self]
    exact HostStat.read_readonce ..
  refine ⟨fun he => absurd hread (by rw [he]; exact Bool.false_ne_true), fun _ => ?_, fun _ => hread, fun _ _ _ => hread,
    fun _ _ => hread, fun r p he => absurd he (hwriting r p)⟩
  rw [hw]
  simp only [readHostspecific]
  cases honce : (w.sfvar.hoststat c.myIndex).readonce with
  | false =>
    rw [h.unseeded honce]
    simp [WriteHistory.none, WriteHistory.ahead]
  | true =>
    rw [h.seeded honce]
    simp

theorem SeqInv.next {a : SfAction} (h : SeqInv c.myIndex w g) (hn : sfNext c w a = some w') :
    SeqInv c.myIndex w' (g.next a) := by
  cases sfNext_move hn with
  | beginWrite hpc hwrite =>
    rw [Bool.and_eq_true] at hwrite
    exact h.keep rfl rfl rfl h.readOnce (by simp [SfPc.iostatus]) (fun _ _ => h.readOnce hwrite.2) (by simp)
  | beginRead hpc =>
    exact h.keep rfl rfl rfl h.readOnce (by simp [SfPc.iostatus, IoStatus.undefined]) (by simp) (by simp)
  | beginNothing hpc => exact h
  | copied readable hpc =>
    have hread := h.copying readable hpc
    refine ⟨fun he => ?_, fun _ => ?_, h.readOnce, fun _ he => (by cases he), fun _ _ => hread, fun r p _ => ?_⟩
    · exact absurd hread (by rw [he]; exact Bool.false_ne_true)
    · dsimp only
      rw [h.seeded hread, g.ahead_copy, BitVec.ofNat_add, BitVec.add_assoc]
      rfl
    · refine ⟨hread, Nat.le_add_left 1 _, ?_⟩
      simp only [SfImage.setHost, Function.update_self, hostspecific]
  | written readable pending hpc =>
    obtain ⟨hread, -, hseq⟩ := h.writing readable pending hpc
    refine ⟨fun he => ?_, fun _ => ?_, h.readOnce, fun io he hs => absurd hs (afterWrite_iostatus he),
      fun _ _ => hread, fun r p he => (afterWrite_ne_writing _ _ _ he).elim⟩
    · exact absurd hread (by rw [he]; exact Bool.false_ne_true)
    · simp only [SfImage.setHost, Function.update_self]
      exact hseq
  | unwritten readable pending status hpc hstatus =>
    obtain ⟨hread, -⟩ := h.writing readable pending hpc
    rw [WriteHistory.next_failed hstatus]
    exact h.keep rfl rfl rfl h.readOnce (fun io he hs => absurd hs (afterWrite_iostatus he)) (fun _ _ => hread)
      fun r p => afterWrite_ne_writing _ _ _
  | globalSkipped _ io _ hpc | globalRead _ io hpc | globalUnread _ io _ hpc | hostSkipped _ _ io _ hpc
  | lastAttempt _ _ io _ hpc | nextAttempt _ _ io _ hpc =>
    have haccess := h.access io (by rw [hpc]; rfl)
    exact h.keep rfl rfl rfl h.readOnce (fun io' he hs => by cases he; exact haccess hs) (by simp) (by simp)
  | hostRead attempt i io hpc hi hopen =>
    have haccess := h.access io (by rw [hpc]; rfl)
    by_cases hime : i = c.myIndex
    · subst hime
      exact h.readLocal rfl fun _ _ => by simp
    · refine h.keep ?_ ?_ rfl h.readOnce (fun io' he hs => ?_) (by simp) (by simp)
      · simp [readHostspecific, hime]
      · simp only [readHostspecific, Function.update_of_ne (Ne.symm hime)]
      · cases he
        simp only [Function.update_of_ne (Ne.symm hime)] at hs
        exact haccess hs
  | hostUnread attempt i io status hpc hi hopen hstatus =>
    have haccess := h.access io (by rw [hpc]; rfl)
    refine h.keep rfl rfl rfl h.readOnce (fun io' he hs => ?_) (by simp) (by simp)
    cases he
    by_cases hime : i = c.myIndex
    · subst hime
      simp only [Function.update_self] at hs
      exact absurd hs hstatus
    · simp only [Function.update_of_ne (Ne.symm hime)] at hs
      exact haccess hs
  | updated io hpc hall | updatedPending io hpc hall =>
    have hread := h.access io (by rw [hpc]; rfl) (io.allRead_host hall c.myIndex_lt)
    exact h.keep rfl rfl rfl (fun _ => hread) (by simp [SfPc.iostatus]) (by simp) (by simp)
  | readFailed io corrupted readOnce pc hpc hall hend =>
    have honce := updateObjects_readOnce hpc hall hn
    rcases hend with rfl | rfl
    · exact h.keep rfl rfl rfl (fun he => h.readOnce (honce he)) (by simp [SfPc.iostatus]) (by simp) (by simp)
    · exact h.keep rfl rfl rfl (fun he => h.readOnce (honce he)) (by simp [SfPc.iostatus]) (by simp) (by simp)
  | globalWritten hpc | globalUnwritten _ hpc =>
    exact h.keep rfl rfl rfl h.readOnce (by simp [SfPc.iostatus]) (by simp) (by simp)
  | tick | peerGlobal | objects => exact ⟨h.unseeded, h.seeded, h.readOnce, h.access, h.copying, h.writing⟩
  | peerHost i r hne =>
    have hdisk : ((w.disk.setHost i r).host c.myIndex) = w.disk.host c.myIndex := by
      simp only [SfImage.setHost, Function.update_of_ne (Ne.symm hne)]
    refine ⟨h.unseeded, fun he => ?_, h.readOnce, h.access, h.copying, h.writing⟩
    rw [hdisk]
    exact h.seeded he

theorem reach_seqInv {w : SeqWorld} (h : (seqMachine c).Reachable w) : SeqInv c.myIndex w.daemon w.history := by
  refine h.inv (I := fun w => SeqInv c.myIndex w.daemon w.history) ?_ ?_
  · rintro _ ⟨clock, disk, buffer, sequence, rfl⟩
    exact SeqInv.initial ..
  · intro s t a hi _ hn
    simp only [seqMachine, Option.map_eq_some_iff] at hn
    obtain ⟨d, hd, rfl⟩ := hn
    exact hi.next hd

end

/-- How far the number that a write leaves is from the one it finds. -/
def WriteHistory.advance (g : WriteHistory) : Nat := g.ahead - 1

/-- A successful write changes the sequence number on disk exactly when the number of copies since the last
successful write, less one if there has been none, is not a multiple of `2^32`. -/
theorem write_is_visible_iff {c : HaConfig} {w : SeqWorld} (h : (seqMachine c).Reachable w) {d : SfWorld}
    (hn : sfNext c w.daemon (.write .success) = some d) :
    (d.disk.host c.myIndex).sequence ≠ (w.daemon.disk.host c.myIndex).sequence ↔ ¬2 ^ 32 ∣ w.history.advance := by
  have hinv := reach_seqInv h
  rw [not_iff_not]
  cases sfNext_move hn with
  | written readable pending hpc =>
    obtain ⟨hread, hcopies, hseq⟩ := hinv.writing readable pending hpc
    have hahead : w.history.advance + 1 = w.history.ahead := by
      unfold WriteHistory.advance WriteHistory.ahead
      split <;> omega
    have hnew : (w.daemon.stateFile.host c.myIndex).sequence =
        (w.daemon.disk.host c.myIndex).sequence + BitVec.ofNat 32 w.history.advance := by
      have hsum := hseq.symm.trans (hinv.seeded hread)
      rw [← hahead, BitVec.ofNat_add, ← BitVec.add_assoc] at hsum
      exact (BitVec.add_left_inj _).1 hsum
    simp only [SfImage.setHost, Function.update_self]
    rw [hnew]
    exact add_ofNat_eq_self_iff _ _
  | unwritten readable pending status hpc hstatus => exact absurd rfl hstatus

/-! ## The first writes of a host -/

/-- A `readsf` of the lone host. -/
def sfRead : List SfAction := [.read .success, .read .success, .read .success, .update]

/-- The thread starts, reads the State-File, and copies the local record. -/
def sfFirstCopy : List SfAction :=
  [.objects .initial .initial ⟨true, true, false⟩ (lmInitializeLmFields 0) .empty false, .begin] ++ sfRead ++ [.begin, .copy]

def seqStart : SeqWorld := ⟨SfWorld.initial 0 0 activeDisk activeDisk 0, .none⟩

theorem seqStart_init : (seqMachine loneHost).init seqStart := ⟨0, activeDisk, activeDisk, 0, rfl⟩

/-- The second write. -/
theorem write_is_visible_iff_second : ∃ w d, (seqMachine loneHost).Reachable w ∧
    sfNext loneHost w.daemon (.write .success) = some d ∧
    (d.disk.host 0).sequence ≠ (w.daemon.disk.host 0).sequence := by
  have hrun : ∃ w, (seqMachine loneHost).Reachable w ∧
      (decide (w.history = ⟨1, true⟩) && (sfNext loneHost w.daemon (.write .success)).isSome) = true :=
    Machine.reach_of_check seqStart_init (sfFirstCopy ++ [.write .success] ++ sfRead ++ [.begin, .copy]) _
      (by decide +kernel)
  obtain ⟨w, hw, hp⟩ := hrun
  rw [Bool.and_eq_true, decide_eq_true_eq, Option.isSome_iff_exists] at hp
  obtain ⟨hhist, d, hd⟩ := hp
  exact ⟨w, d, hw, hd, (write_is_visible_iff hw hd).2 (by rw [hhist]; decide)⟩

/-- The first write after the start leaves the number that it finds. -/
theorem first_write_is_invisible : ∃ w d, (seqMachine loneHost).Reachable w ∧
    sfNext loneHost w.daemon (.write .success) = some d ∧
    (d.disk.host 0).sequence = (w.daemon.disk.host 0).sequence := by
  have hrun : ∃ w, (seqMachine loneHost).Reachable w ∧ ((sfNext loneHost w.daemon (.write .success)).any fun d =>
      (d.disk.host 0).sequence = (w.daemon.disk.host 0).sequence) = true :=
    Machine.reach_of_check seqStart_init sfFirstCopy _ (by decide +kernel)
  obtain ⟨w, hw, hp⟩ := hrun
  obtain ⟨d, hd, hsame⟩ := (Option.any_eq_true _ _).1 hp
  exact ⟨w, d, hw, hd, of_decide_eq_true hsame⟩

end Xha
