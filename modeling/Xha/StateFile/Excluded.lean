/-
`do_set_clear_excluded_sub` (sc_func.c) answers once a changed sequence number of the local record was
read after the call took its start time. The answer is right when no record with another flag was on its
way at that time: copied by `write_hostspecific`, or written, and not read back yet (`set_excluded_on_disk`). What the
call knows at each of its points is `FlagCall`, and the steps of the daemon keep it.
-/
import Xha.StateFile.Machine

namespace Xha

open Loop Transition

/-- A copied record is on its way to the disk. -/
def SfPc.isWriting : SfPc → Bool
  | .writing _ _ => true
  | _ => false

/-- The status of the accesses so far, while `readsf` runs. -/
def SfPc.iostatus : SfPc → Option IoStatus
  | .reading _ _ io => some io
  | .updating io => some io
  | _ => none

/-! ## A requested flag -/

/-- From the request on: the flag is set in memory, and once its mask bit is clear every place a
record passes through carries it. -/
structure FlagRequested (me : Nat) (v : Bool) (w : SfWorld) : Prop where
  flag : w.sf.excluded.isOn me = v
  copied : w.sf.modifiedMask.excluded = false → ∀ r p, w.pc = .writing r p → (w.stateFile.host me).excluded = v
  onDisk : w.sf.modifiedMask.excluded = false → (∀ r, w.pc ≠ .writing r true) → (w.disk.host me).excluded = v
  readBack : w.sf.modifiedMask.excluded = false → ∀ io, w.pc.iostatus = some io → io.hostSection me = .success →
    (w.stateFile.host me).excluded = v

theorem FlagRequested.request {me : Nat} (hme : me < maxHostNum) (v : Bool) (w : SfWorld) :
    FlagRequested me v { w with sf := sfSetExcluded me v w.sf } := by
  refine ⟨?_, fun h => ?_, fun h => ?_, fun h => ?_⟩
  · simp [sfSetExcluded, HostMap.isOn_setBoolean, hme]
  all_goals cases h

section

variable {c : HaConfig} {v : Bool} {w w' : SfWorld}

theorem afterWrite_iostatus {readable : Bool} {io : IoStatus} (h : (afterWrite readable).iostatus = some io) :
    io.hostSection c.myIndex ≠ .success := by
  cases readable
  · cases h
  · cases h; simp [IoStatus.undefined]

/-- A step between two points where no record is being written. -/
theorem FlagRequested.move (h : FlagRequested c.myIndex v w) (hpc : w.pc.isWriting = false) (hpc' : w'.pc.isWriting = false)
    (hmask : w'.sf.modifiedMask.excluded = w.sf.modifiedMask.excluded) (hflag : w'.sf.excluded.isOn c.myIndex = v)
    (hdisk : (w'.disk.host c.myIndex).excluded = (w.disk.host c.myIndex).excluded)
    (hback : w.sf.modifiedMask.excluded = false → (w.disk.host c.myIndex).excluded = v → ∀ io, w'.pc.iostatus = some io →
      io.hostSection c.myIndex = .success → (w'.stateFile.host c.myIndex).excluded = v) :
    FlagRequested c.myIndex v w' := by
  have hnot : ∀ r, w.pc ≠ .writing r true := fun r he => by rw [he] at hpc; cases hpc
  refine ⟨hflag, fun _ r p he => ?_, fun hm _ => ?_, fun hm => ?_⟩
  · rw [he] at hpc'
    cases hpc'
  · rw [hdisk]
    exact h.onDisk (hmask ▸ hm) hnot
  · have hm' : w.sf.modifiedMask.excluded = false := hmask ▸ hm
    exact hback hm' (h.onDisk hm' hnot)

/-- An access of `readsf` that leaves the local record in the buffer alone and does not report it read. -/
theorem FlagRequested.access {io' : IoStatus} (h : FlagRequested c.myIndex v w) (io : IoStatus)
    (hpc : w.pc.iostatus = some io) (hpc' : w'.pc.iostatus = some io') (hsf : w'.sf = w.sf) (hdisk : w'.disk = w.disk)
    (hfile : w'.stateFile.host c.myIndex = w.stateFile.host c.myIndex)
    (hio : io'.hostSection c.myIndex = .success → io.hostSection c.myIndex = .success) : FlagRequested c.myIndex v w' := by
  have hnot : ∀ {pc : SfPc} {io : IoStatus}, pc.iostatus = some io → pc.isWriting = false := by
    intro pc io he
    cases pc <;> first | rfl | cases he
  refine h.move (hnot hpc) (hnot hpc') (by rw [hsf]) (by rw [hsf]; exact h.flag) (by rw [hdisk]) fun hm _ io'' he hs => ?_
  rw [hpc'] at he
  cases he
  rw [hfile]
  exact h.readBack hm io hpc (hio hs)

/-- A requested flag stays requested in every step of the daemon and its surroundings. -/
theorem FlagRequested.next {a : SfAction} (h : FlagRequested c.myIndex v w) (hn : sfNext c w a = some w') :
    FlagRequested c.myIndex v w' := by
  cases sfNext_move hn with
  | beginWrite hpc => exact h.move (by rw [hpc]; rfl) rfl rfl h.flag rfl (by simp [SfPc.iostatus])
  | beginRead hpc =>
    exact h.move (by rw [hpc]; rfl) rfl rfl h.flag rfl (by simp [SfPc.iostatus, IoStatus.undefined])
  | beginNothing hpc => exact h
  | copied readable hpc =>
    refine ⟨h.flag, fun _ r p _ => ?_, fun _ hne => ?_, fun _ _ he => by cases he⟩
    · simp only [SfImage.setHost, Function.update_self, hostspecific]
      exact h.flag
    · -- not pending before the copy: the flag is on disk already
      have hmask : w.sf.modifiedMask.excluded = false := by
        by_contra hm
        exact hne readable (by rw [Bool.not_eq_false] at hm; rw [hm])
      exact h.onDisk hmask fun r he => by rw [hpc] at he; cases he
  | written readable pending hpc =>
    refine ⟨h.flag, fun _ r p he => (afterWrite_ne_writing _ _ _ he).elim, fun hm _ => ?_,
      fun _ io he hs => absurd hs (afterWrite_iostatus he)⟩
    simp only [SfImage.setHost, Function.update_self]
    exact h.copied hm _ _ hpc
  | unwritten readable pending status hpc =>
    refine ⟨h.flag, fun _ r p he => (afterWrite_ne_writing _ _ _ he).elim, fun hm _ => ?_,
      fun _ io he hs => absurd hs (afterWrite_iostatus he)⟩
    -- a failed write restores the mask bit, so the bit was clear before the copy
    simp only [Bool.or_eq_false_iff] at hm
    refine h.onDisk hm.2 fun r he => ?_
    rw [hpc] at he
    cases he
    cases hm.1
  | globalSkipped _ io _ hpc | globalRead _ io hpc | globalUnread _ io _ hpc | hostSkipped _ _ io _ hpc
  | lastAttempt _ _ io _ hpc | nextAttempt _ _ io _ hpc => exact h.access io (by rw [hpc]; rfl) rfl rfl rfl rfl id
  | hostRead attempt i io hpc =>
    by_cases hime : i = c.myIndex
    · subst hime
      refine h.move (by rw [hpc]; rfl) rfl rfl h.flag rfl fun _ hd _ _ _ => ?_
      simp only [readHostspecific, SfImage.setHost, Function.update_self]
      exact hd
    · refine h.access io (by rw [hpc]; rfl) rfl rfl rfl ?_ fun hs => ?_
      · simp only [readHostspecific, SfImage.setHost, Function.update_of_ne (Ne.symm hime)]
      · simp only [Function.update_of_ne (Ne.symm hime)] at hs
        exact hs
  | hostUnread attempt i io status hpc _ _ hstatus =>
    refine h.access io (by rw [hpc]; rfl) rfl rfl rfl rfl fun hs => ?_
    by_cases hime : i = c.myIndex
    · subst hime
      simp only [Function.update_self] at hs
      exact absurd hs hstatus
    · simp only [Function.update_of_ne (Ne.symm hime)] at hs
      exact hs
  | updated io hpc hall | updatedPending io hpc hall =>
    obtain ⟨-, hexc, hmask, -⟩ := updatedObjects_local c w
    refine h.move (by rw [hpc]; rfl) rfl hmask ?_ rfl (by simp [SfPc.iostatus])
    rw [hexc]
    split
    · rename_i hm
      exact h.readBack hm io (by rw [hpc]; rfl) (io.allRead_host hall c.myIndex_lt)
    · exact h.flag
  | readFailed io corrupted readOnce pc hpc _ hend =>
    have hnext : pc.isWriting = false ∧ pc.iostatus = none := by rcases hend with rfl | rfl <;> exact ⟨rfl, rfl⟩
    exact h.move (by rw [hpc]; rfl) hnext.1 rfl h.flag rfl fun _ _ io' he => by rw [hnext.2] at he; cases he
  | globalWritten hpc | globalUnwritten _ hpc =>
    exact h.move (by rw [hpc]; rfl) rfl rfl h.flag rfl (by simp [SfPc.iostatus])
  | tick | peerGlobal | objects => exact ⟨h.flag, h.copied, h.onDisk, h.readBack⟩
  | peerHost i r hne =>
    refine ⟨h.flag, h.copied, fun hm hpc => ?_, h.readBack⟩
    simp only [SfImage.setHost, Function.update_of_ne (Ne.symm hne)]
    exact h.onDisk hm hpc

/-! ## A call that has taken its start time -/

/-- From the start time on: whatever record is on its way, or is read back with a changed sequence
number, carries the flag. -/
structure FlagStarted (me : Nat) (v : Bool) (timeStart : MtcClock) (w : SfWorld) : Prop where
  requested : FlagRequested me v w
  writing : ∀ r p, w.pc = .writing r p → (w.stateFile.host me).excluded = v
  unread : (w.sfvar.hoststat me).readonce = true → (w.sfvar.hoststat me).sequence ≠ (w.disk.host me).sequence →
    (w.disk.host me).excluded = v
  updated : timeStart < (w.sfvar.hoststat me).updateclock → (w.disk.host me).excluded = v
  published : timeStart < w.sf.timeLastSf me → (w.disk.host me).excluded = v

/-- No record with another flag is on its way: none is being written, and none waits to be read back. -/
def NoOtherFlagUnderway (me : Nat) (v : Bool) (w : SfWorld) : Prop :=
  (w.pc.isWriting = true → (w.stateFile.host me).excluded = v) ∧
  ((w.sfvar.hoststat me).readonce = true → (w.sfvar.hoststat me).sequence ≠ (w.disk.host me).sequence →
    (w.disk.host me).excluded = v)

theorem FlagRequested.start (h : FlagRequested c.myIndex v w) (ht : TimesPast c.myIndex w)
    (hu : NoOtherFlagUnderway c.myIndex v w) : FlagStarted c.myIndex v w.clock w :=
  ⟨h, fun r p he => hu.1 (by rw [he]; rfl), hu.2, fun hlt => absurd ht.updated (not_le.2 hlt),
    fun hlt => absurd ht.published (not_le.2 hlt)⟩

theorem FlagStarted.next {t : MtcClock} {a : SfAction} (h : FlagStarted c.myIndex v t w)
    (hn : sfNext c w a = some w') : FlagStarted c.myIndex v t w' := by
  have hr := h.requested.next hn
  cases sfNext_local hn with
  | quiet _ hdisk hstat htime hwr =>
    refine ⟨hr, fun r p he => ?_, by rw [hstat, hdisk]; exact h.unread, by rw [hstat, hdisk]; exact h.updated,
      by rw [htime, hdisk]; exact h.published⟩
    obtain ⟨he, hfile⟩ := hwr r p he
    rw [hfile]
    exact h.writing r p he
  | copied _ hdisk hstat htime hcopy =>
    refine ⟨hr, fun _ _ _ => ?_, by rw [hstat, hdisk]; exact h.unread, by rw [hstat, hdisk]; exact h.updated,
      by rw [htime, hdisk]; exact h.published⟩
    rw [hcopy]
    exact h.requested.flag
  | written r p hpc hdisk _ _ _ hnot =>
    -- the record written was copied after the request
    have hv : (w'.disk.host c.myIndex).excluded = v := by rw [hdisk]; exact h.writing r p hpc
    exact ⟨hr, fun r p he => absurd he (hnot r p), fun _ _ => hv, fun _ => hv, fun _ => hv⟩
  | readBack hstat _ hdisk htime hnot =>
    refine ⟨hr, fun r p he => absurd he (hnot r p), fun _ hne => ?_, fun hlt => ?_, by rw [htime, hdisk]; exact h.published⟩
    · rw [hstat, hdisk] at hne
      exact absurd (HostStat.read_sequence ..) hne
    · rw [hdisk]
      rw [hstat] at hlt
      -- the read found a changed sequence number, or the time is an older one
      unfold HostStat.read at hlt
      dsimp only at hlt
      split at hlt
      · exact h.updated hlt
      · rename_i hread
        split at hlt
        · rename_i hne
          exact h.unread (by simpa using hread) hne
        · exact h.updated hlt
  | published htime _ hdisk hstat hnot =>
    refine ⟨hr, fun r p he => absurd he (hnot r p), by rw [hstat, hdisk]; exact h.unread,
      by rw [hstat, hdisk]; exact h.updated, ?_⟩
    rw [htime, hdisk]
    exact h.updated

/-- Once the flag is on disk, it stays there. -/
theorem FlagStarted.disk_next {t : MtcClock} {a : SfAction} (h : FlagStarted c.myIndex v t w)
    (hv : (w.disk.host c.myIndex).excluded = v) (hn : sfNext c w a = some w') :
    (w'.disk.host c.myIndex).excluded = v := by
  cases sfNext_local hn with
  | quiet _ hdisk _ _ _ => rw [hdisk]; exact hv
  | copied _ hdisk _ _ _ => rw [hdisk]; exact hv
  | written r p hpc hdisk _ _ _ _ => rw [hdisk]; exact h.writing r p hpc
  | readBack _ _ hdisk _ _ => rw [hdisk]; exact hv
  | published _ _ hdisk _ _ => rw [hdisk]; exact hv

end

/-! ## The answer -/

/-- What holds of the daemon at each point of a call that sets or clears the flag. -/
def FlagCall (me : Nat) (d : SfWorld) : ScPc → Prop
  | .requested (.setExcluded v) _ => FlagRequested me v d
  | .polling (.setExcluded v) t _ => FlagStarted me v t d
  | .returned (.setExcluded v) .success _ => (∃ t, FlagStarted me v t d) ∧ (d.disk.host me).excluded = v
  | _ => True

theorem FlagCall.daemon {c : HaConfig} {d d' : SfWorld} {a : SfAction} {script : ScPc}
    (h : FlagCall c.myIndex d script) (hd : sfNext c d a = some d') : FlagCall c.myIndex d' script := by
  cases script with
  | requested req since =>
    cases req with
    | setExcluded v => exact FlagRequested.next h hd
    | setPoolState state => trivial
  | polling req t since =>
    cases req with
    | setExcluded v => exact FlagStarted.next h hd
    | setPoolState state => trivial
  | returned req status since =>
    cases req with
    | setExcluded v =>
      cases status with
      | success =>
        obtain ⟨⟨t, hs⟩, hv⟩ := h
        exact ⟨⟨t, hs.next hd⟩, hs.disk_next hv hd⟩
      | _ => trivial
    | setPoolState state => trivial
  | _ => trivial

/-- Runs in which no call takes its start time while a record with another flag is on its way. -/
def StartsClean (c : HaConfig) (w : ScWorld) (a : ScAction) : Prop :=
  match a, w.script with
  | .start, .requested (.setExcluded v) _ => NoOtherFlagUnderway c.myIndex v w.daemon
  | _, _ => True

instance (me : Nat) (v : Bool) (w : SfWorld) : Decidable (NoOtherFlagUnderway me v w) := by
  unfold NoOtherFlagUnderway; infer_instance

instance (c : HaConfig) (w : ScWorld) (a : ScAction) : Decidable (StartsClean c w a) :=
  decidable_of_iff ((match a, w.script with
    | .start, .requested (.setExcluded v) _ => decide (NoOtherFlagUnderway c.myIndex v w.daemon)
    | _, _ => true) = true) (by unfold StartsClean; split <;> simp)

theorem FlagCall.next {c : HaConfig} {w w' : ScWorld} {a : ScAction} (ht : TimesPast c.myIndex w.daemon)
    (h : FlagCall c.myIndex w.daemon w.script) (hok : StartsClean c w a) (hn : scNext c w a = some w') :
    FlagCall c.myIndex w'.daemon w'.script := by
  have hme : c.myIndex < maxHostNum := lt_of_lt_of_le c.myIndex_lt c.hostnum_le
  cases scNext_move hn with
  | daemon d d' a script hd => exact h.daemon hd
  | accepted | finish | setMaster => trivial
  | refused d req status _ hne =>
    cases req with
    | setExcluded v =>
      cases status with
      | success => exact absurd rfl hne
      | _ => trivial
    | setPoolState state => trivial
  | request d req since =>
    cases req with
    | setExcluded v => exact FlagRequested.request hme v d
    | setPoolState state => trivial
  | start d req since =>
    cases req with
    | setExcluded v => exact FlagRequested.start h ht hok
    | setPoolState state => trivial
  | accessLost d req => cases req <;> trivial
  | answered d req t since _ hlt =>
    cases req with
    | setExcluded v => exact ⟨⟨t, h⟩, FlagStarted.published h hlt⟩
    | setPoolState state => trivial
  | waiting => exact h

/-- In every run in which no call takes its start time while a record with another flag is on its way,
an answer of success means that the flag is on disk. -/
theorem set_excluded_on_disk {c : HaConfig} {w : ScWorld} (h : (scMachine c).Reach (StartsClean c) w) {v : Bool}
    {since : Nat} (hret : w.script = .returned (.setExcluded v) .success since) :
    (w.daemon.disk.host c.myIndex).excluded = v := by
  have hcall : FlagCall c.myIndex w.daemon w.script :=
    ScWorld.call_inv (I := FlagCall c.myIndex) h (fun _ => trivial) fun _ _ _ ht hcall hok hn => hcall.next ht hok hn
  rw [hret] at hcall
  exact hcall.2

/-- A call between two cycles: the next cycle writes the flag and reads it back. -/
def timelyRequest (v : Bool) : List ScAction :=
  openStateFile ++ [.call (.setExcluded v), .request, .start, .daemon (.tick 1), .daemon .begin, .daemon .copy,
    .daemon (.write .success)] ++ readAll ++ [.poll]

theorem set_excluded_on_disk_timely :
    ∃ w : ScWorld, (∃ since, w.script = .returned (.setExcluded true) .success since) ∧
      (w.daemon.disk.host 0).excluded = true := by
  have hrun : ∃ w, (scMachine loneHost).Reach (StartsClean loneHost) w ∧
      decide (w.script = .returned (.setExcluded true) .success 0) = true :=
    Machine.reach_of_check loneWorld_init (timelyRequest true) _ (by decide +kernel)
  obtain ⟨w, hw, hp⟩ := hrun
  rw [decide_eq_true_eq] at hp
  exact ⟨w, ⟨0, hp⟩, set_excluded_on_disk hw hp⟩

/-- A call that comes in between the copy of the record and its write. -/
def lateRequest (v : Bool) : List ScAction :=
  openStateFile ++ [.daemon .begin, .daemon .copy, .call (.setExcluded v), .request, .start, .daemon (.tick 1),
    .daemon (.write .success)] ++ readAll ++ [.poll]

/-- The call answers success and the record on disk has the old flag. -/
theorem set_excluded_too_early :
    ∃ w, (scMachine loneHost).Reachable w ∧ (∃ since, w.script = .returned (.setExcluded true) .success since) ∧
      (w.daemon.disk.host 0).excluded = false := by
  have hrun : ∃ w, (scMachine loneHost).Reachable w ∧ (decide (w.script = .returned (.setExcluded true) .success 0) &&
      !(w.daemon.disk.host 0).excluded) = true :=
    Machine.reach_of_check loneWorld_init (lateRequest true) _ (by decide +kernel)
  obtain ⟨w, hw, hp⟩ := hrun
  simp only [Bool.and_eq_true, decide_eq_true_eq, Bool.not_eq_true'] at hp
  exact ⟨w, hw, ⟨0, hp.1⟩, hp.2⟩

end Xha
