/-
That the object manager goes on (com.c): no assertion fails when at most sixteen threads use it with discipline, and
among threads that wait for locks there is always one that does not wait (`com_goes_on`). For the assertions each call
is gone through under the invariant of the locks; for the waiting the locks are ordered, and the one furthest up is
held by a thread that goes on.
-/
import Xha.Com.Locking
import Xha.Lib.LockOrder

namespace Xha

open Transition

/-! ## Waiting -/

/-- The lock that a call waits for. -/
def ComCallPc.waitsFor : ComCallPc → Option LockKind
  | .waiting .. => some .writer
  | .locking kind => some kind
  | _ => none

/-- The call of a thread waits for a lock of an object that is not free. -/
def ComState.WaitsAt (s : ComState) (t : ThreadId) (object : HaCommonObject) : Prop :=
  ∃ c o kind, s.calls.lookup t = some c ∧ c.pc.waitsFor = some kind ∧ s.objectOf c.handle = some o ∧
    s.object o = some object ∧ rwlockFree object.rwlock kind = false

/-- A thread waits. -/
def ComState.Waits (s : ComState) (t : ThreadId) : Prop := ∃ object, s.WaitsAt t object

/-- What the callers of the object manager see to: a callback is not NULL, and who takes one back has registered it;
data have the size of the buffer. `malloc` returns new memory. -/
def Prepared (s : ComState) : ComAction → Prop
  | .create _ _ _ _ new handle | .openObject _ _ new handle =>
    handle ≠ 0 ∧ s.handle.lookup handle = none ∧ new ≠ 0 ∧ s.object new = none
  | .registerCallback _ _ func => func ≠ 0
  | .deregisterCallback _ handle func => func ≠ 0 ∧ s.At handle fun object => ∃ c ∈ object.callbackList, c.func = func
  | .write _ handle buffer => s.At handle fun object => ∃ old, object.buffer = some old ∧ buffer.length = old.length
  | _ => True

/-- It is the turn of the thread of an action: it is in no call, or in the call that goes on. -/
def Turn (s : ComState) : ComAction → Prop
  | .advance self => s.calls.lookup self ≠ none
  | a => s.calls.lookup a.self = none

section

variable {s s' : ComState} {self : ThreadId} {o handle func : Addr} {object object' : HaCommonObject} {a : ComAction}
  {rank : CString → Nat} {threads : Finset ThreadId} {lockState : LockState}

/-! ## Records -/

theorem setThreadIdRecord_isSome (h : ∃ r ∈ object.threadIdRecordTable, r.found self lockState = true) :
    ∃ object', setThreadIdRecord object self lockState = some object' := by
  unfold setThreadIdRecord
  rw [if_pos (List.any_eq_true.2 h)]
  exact ⟨_, rfl⟩

/-- A thread with a record finds it. -/
theorem setThreadIdRecord_recorded (hself : self ∈ object.recorded) (hstate : ∀ kind, lockState ≠ LockKind.acquiring kind) :
    ∃ object', setThreadIdRecord object self lockState = some object' := by
  apply setThreadIdRecord_isSome
  obtain ⟨r, hr, rfl⟩ := List.mem_map.1 (Multiset.mem_coe.1 hself)
  obtain ⟨hmem, hne⟩ := List.mem_filter.1 hr
  refine ⟨r, hmem, ?_⟩
  cases lockState with
  | readerAcquiring => exact absurd rfl (hstate .reader)
  | writerAcquiring => exact absurd rfl (hstate .writer)
  | none | readerAcquired | writerAcquired => simpa [ThreadIdRecord.found] using hne

/-- There is a free record for another thread. -/
theorem setThreadIdRecord_free {kind : LockKind} (hlen : object.threadIdRecordTable.length = threadIdRecordNum)
    (hcard : object.recorded.card < threadIdRecordNum) :
    ∃ object', setThreadIdRecord object self kind.acquiring = some object' := by
  apply setThreadIdRecord_isSome
  by_contra hnone
  push Not at hnone
  have hall : ∀ r ∈ object.threadIdRecordTable, decide (r.lockState ≠ .none) = true := by
    intro r hr
    have hnot := hnone r hr
    cases kind <;> simpa [ThreadIdRecord.found, LockKind.acquiring] using hnot
  rw [HaCommonObject.recorded, recordedIn, List.filter_eq_self.2 hall, Multiset.coe_card, List.length_map, hlen] at hcard
  exact lt_irrefl _ hcard

theorem releaseLock_isSome (hself : self ∈ object.recorded) : ∃ object', releaseLock object self = some object' := by
  have hset : ∃ object', setThreadIdRecord { object with inUse := object.inUse - 1 } self .none = some object' :=
    setThreadIdRecord_recorded hself fun kind => by cases kind <;> exact nofun
  obtain ⟨object', hset⟩ := hset
  rw [releaseLock, hset]
  exact ⟨_, rfl⟩

/-! ## What is behind a handle -/

theorem ComState.deref_of (hobj : s.objectOf handle = some o) (hlive : s.object o = some object) :
    s.deref handle = some (o, object) := by
  rw [ComState.deref, hobj]
  simp [hlive]

theorem ComLockInv.enter (hinv : ComLockInv rank threads s) (hopen : (s.handle.lookup handle).isSome) :
    ∃ o object, s.enter handle = some (o, object) ∧ s.objectOf handle = some o ∧ s.object o = some object := by
  obtain ⟨x, hx⟩ := Option.isSome_iff_exists.1 hopen
  have hobj : s.objectOf handle = some x.object := by rw [ComState.objectOf, hx]; rfl
  obtain ⟨object, hlive⟩ := Option.ne_none_iff_exists'.1 (hinv.counted.live handle x.object hobj)
  refine ⟨x.object, object, ?_, hobj, hlive⟩
  have hvalid : (s.handle.lookup handle).any (validObjectHandle handle) = true := by
    rw [hx]
    exact hinv.valid handle x hx
  rw [ComState.enter, if_pos hvalid, ComState.deref_of hobj hlive]

theorem ComLockInv.deref (hinv : ComLockInv rank threads s) {t : ThreadId} {c : ComCall} (hc : s.calls.lookup t = some c) :
    ∃ o object, s.deref c.handle = some (o, object) ∧ s.objectOf c.handle = some o ∧ s.object o = some object := by
  obtain ⟨o, hobj⟩ := Option.ne_none_iff_exists'.1 (hinv.counted.used t c hc)
  obtain ⟨object, hlive⟩ := Option.ne_none_iff_exists'.1 (hinv.counted.live c.handle o hobj)
  exact ⟨o, object, ComState.deref_of hobj hlive, hobj, hlive⟩

theorem ComLockInv.recorded (hinv : ComLockInv rank threads s) (hlive : s.object o = some object) :
    object.recorded = object.holders + s.announced o := (hinv.counted.counts o object hlive).recorded

theorem ComState.mem_announced {t : ThreadId} :
    t ∈ s.announced o ↔ ∃ c, s.calls.lookup t = some c ∧ c.pc.announces = true ∧ s.objectOf c.handle = some o := by
  rw [ComState.announced, Multiset.mem_filterMap]
  constructor
  · rintro ⟨⟨t', c⟩, he, hby⟩
    unfold ComState.announcedBy at hby
    split at hby
    · rename_i hon
      rw [Bool.and_eq_true, decide_eq_true_eq] at hon
      cases hby
      exact ⟨c, Finmap.mem_lookup_iff.2 he, hon⟩
    · cases hby
  · rintro ⟨c, hc, hpc, hobj⟩
    refine ⟨⟨t, c⟩, Finmap.mem_lookup_iff.1 hc, ?_⟩
    rw [ComState.announcedBy, hpc, hobj]
    simp

theorem ComState.not_mem_announced {t : ThreadId} (hidle : s.calls.lookup t = none) : t ∉ s.announced o := by
  rw [ComState.mem_announced]
  rintro ⟨c, hc, -⟩
  rw [hidle] at hc
  cases hc

/-- A thread that asks for the lock of an object finds a free record. -/
theorem ComLockInv.free_record (hinv : ComLockInv rank threads s) (hcard : threads.card ≤ threadIdRecordNum)
    (hd : Disciplined rank threads s a) (hidle : s.calls.lookup a.self = none) (hhandle : ∀ handle ∈ a.handle, s.objectOf handle = some o)
    (hlive : s.object o = some object) (hask : a.locks ≠ none ∨ a.opens = some object.objectId) :
    object.recorded.card < threadIdRecordNum := by
  have hnot : a.self ∉ object.recorded := by
    rw [hinv.recorded hlive]
    intro hmem
    rcases Multiset.mem_add.1 hmem with hmem | hmem
    · exact absurd (hd.before hinv.counted hhandle hlive hask hlive hmem) (lt_irrefl _)
    · exact ComState.not_mem_announced hidle hmem
  have hnodup : object.recorded.Nodup := by
    rw [hinv.recorded hlive]
    exact hinv.once o object hlive
  -- with the thread itself the records are of different threads, all among the sixteen
  have hsub : (a.self ::ₘ object.recorded).toFinset ⊆ threads := by
    intro t ht
    rcases Multiset.mem_cons.1 (Multiset.mem_toFinset.1 ht) with rfl | hmem
    · exact hd.thread
    · rw [hinv.recorded hlive] at hmem
      exact hinv.threads o object hlive t hmem
  have hle := Finset.card_le_card hsub
  rw [Multiset.toFinset_card_of_nodup (Multiset.nodup_cons.2 ⟨hnot, hnodup⟩), Multiset.card_cons] at hle
  omega

/-! ## No assertion fails -/

/-- A call under way goes on, unless it waits. -/
theorem ComLockInv.advance (hinv : ComLockInv rank threads s) (hturn : s.calls.lookup self ≠ none) (hwaits : ¬s.Waits self) :
    ∃ s', comAdvance { s with invoked := [] } self = some s' := by
  obtain ⟨⟨handle, pc⟩, hc⟩ := Option.ne_none_iff_exists'.1 hturn
  obtain ⟨o, object, hderef, hobj, hlive⟩ := hinv.deref hc
  have hannounced : pc.announces = true → self ∈ object.recorded := by
    intro hpc
    rw [hinv.recorded hlive]
    exact Multiset.mem_add.2 (.inr (ComState.mem_announced.2 ⟨_, hc, hpc, hobj⟩))
  have hhas : ∀ kind, pc.has = some kind → self ∈ object.recorded := by
    intro kind hpc
    rw [hinv.recorded hlive]
    exact Multiset.mem_add.2 (.inl (HaCommonObject.mem_holders.2 ⟨kind, hinv.has self _ kind hc hpc o object hobj hlive⟩))
  have hfree : ∀ kind, pc.waitsFor = some kind → rwlockFree object.rwlock kind = true := by
    intro kind hpc
    by_contra hnot
    exact hwaits ⟨object, _, o, kind, hc, hpc, hobj, hlive, Bool.eq_false_iff.2 hnot⟩
  have hacquired : ∀ kind kind' : LockKind, kind.acquired ≠ kind'.acquiring := by
    intro kind kind'
    cases kind <;> cases kind' <;> exact nofun
  have hderef : ({ s with invoked := [] } : ComState).deref handle = some (o, object) := hderef
  unfold comAdvance
  simp only [hc, hderef, Option.bind_eq_bind, Option.bind_some]
  cases pc with
  | found size buffer =>
    dsimp only
    split <;> exact ⟨_, rfl⟩
  | waiting size buffer =>
    dsimp only
    rw [if_pos (hfree .writer rfl)]
    exact ⟨_, rfl⟩
  | filling size buffer =>
    obtain ⟨recorded, hset⟩ : ∃ object', setThreadIdRecord object self .writerAcquired = some object' :=
      setThreadIdRecord_recorded (hhas .writer rfl) (hacquired .writer)
    have hrecorded : self ∈ recorded.recorded := by
      have hset : setThreadIdRecord object self LockKind.writer.acquired = some recorded := hset
      obtain ⟨table, rfl, -, htable⟩ := setThreadIdRecord_acquired hset
      have hmem : self ∈ recordedIn table := htable ▸ hhas .writer rfl
      exact hmem
    generalize hfilled : newObjectBuffer recorded size buffer = filled
    have hmem : self ∈ filled.recorded := by rw [← hfilled]; exact hrecorded
    have hrelease : ∃ object', releaseLock { filled with checksum := calcChecksumObjectBuffer filled } self = some object' :=
      releaseLock_isSome hmem
    obtain ⟨object', hrelease⟩ := hrelease
    simp only [hset, Option.bind_some, hfilled, hrelease]
    exact ⟨_, rfl⟩
  | leaving =>
    obtain ⟨recorded, hset⟩ : ∃ object', setThreadIdRecord object self .none = some object' :=
      setThreadIdRecord_recorded (hannounced rfl) fun kind => by cases kind <;> exact nofun
    simp only [hset, Option.bind_some]
    exact ⟨_, rfl⟩
  | locking kind =>
    dsimp only
    rw [if_pos (hfree kind rfl)]
    exact ⟨_, rfl⟩
  | locked kind =>
    obtain ⟨recorded, hset⟩ := setThreadIdRecord_recorded (hhas kind rfl) (hacquired kind)
    simp only [hset, Option.bind_some]
    exact ⟨_, rfl⟩

theorem ComLockInv.create (hinv : ComLockInv rank threads s) (hcard : threads.card ≤ threadIdRecordNum)
    (hd : Disciplined rank threads s a) {objectId : CString} {size : MtcU32} {buffer : Option (List Byte)} {new : Addr}
    (ha : a.opens = some objectId) (hno : a.handle = none) (hidle : s.calls.lookup a.self = none)
    (hp : handle ≠ 0 ∧ s.handle.lookup handle = none ∧ new ≠ 0 ∧ s.object new = none) :
    ∃ s', comCreate { s with invoked := [] } a.self objectId size buffer new handle = some s' := by
  obtain ⟨hhandle, hfresh, hnew, hfree⟩ := hp
  have hnot : ¬(handle = 0 || (s.handle.lookup handle).isSome) = true := by
    rw [hfresh]
    simpa using hhandle
  unfold comCreate
  rw [if_neg hnot]
  cases hfind : findCommonObject { s with invoked := [] } objectId with
  | none =>
    have hnot : ¬(new = 0 || (s.object new).isSome) = true := by
      rw [hfree]
      simpa using hnew
    dsimp only
    rw [if_neg hnot]
    exact ⟨_, rfl⟩
  | some o =>
    have hfind : findCommonObject s objectId = some o := hfind
    obtain ⟨object, hlive, hid⟩ := ComState.key_eq_some.1 (hinv.counted.table.find_eq_some.1 hfind)
    have hrecord := hinv.free_record hcard hd hidle (by rw [hno]; exact nofun) hlive (.inr (hid ▸ ha))
    have hset : ∃ object', setThreadIdRecord { object with refCount := object.refCount + 1, inUse := object.inUse + 1 } a.self
        LockKind.writer.acquiring = some object' :=
      setThreadIdRecord_free (hinv.counted.counts o object hlive).table hrecord
    obtain ⟨object', hset⟩ := hset
    have hset : setThreadIdRecord { object with refCount := object.refCount + 1, inUse := object.inUse + 1 } a.self
        .writerAcquiring = some object' := hset
    simp only [hlive, Option.bind_eq_bind, Option.bind_some, hset]
    exact ⟨_, rfl⟩

theorem ComLockInv.lock (hinv : ComLockInv rank threads s) (hcard : threads.card ≤ threadIdRecordNum)
    (hd : Disciplined rank threads s a) {kind : LockKind} (hkind : a.locks = some kind) (ha : a.handle = some handle)
    (hopen : (s.handle.lookup handle).isSome) (hidle : s.calls.lookup a.self = none) :
    ∃ s', comLock { s with invoked := [] } a.self kind handle = some s' := by
  obtain ⟨o, object, henter, hobj, hlive⟩ := hinv.enter hopen
  have hrecord := hinv.free_record hcard hd hidle (by rw [ha]; rintro _ ⟨⟩; exact hobj) hlive
    (.inl (by rw [hkind]; exact Option.some_ne_none _))
  have hset : ∃ object', setThreadIdRecord { object with inUse := object.inUse + 1 } a.self kind.acquiring = some object' :=
    setThreadIdRecord_free (hinv.counted.counts o object hlive).table hrecord
  obtain ⟨object', hset⟩ := hset
  have henter : ({ s with invoked := [] } : ComState).enter handle = some (o, object) := henter
  unfold comLock
  simp only [henter, Option.bind_eq_bind, Option.bind_some, hset]
  exact ⟨_, rfl⟩

theorem ComLockInv.unlock (hinv : ComLockInv rank threads s) (hd : Disciplined rank threads s a) {kind : LockKind}
    (hkind : a.unlocks = some kind) (ha : a.handle = some handle) (hopen : (s.handle.lookup handle).isSome) :
    ∃ o object object', s.enter handle = some (o, object) ∧ (kind, a.self) ∈ object.rwlock ∧ s.object o = some object ∧
      releaseLock { object with checksum := calcChecksumObjectBuffer object } a.self = some object' := by
  obtain ⟨o, object, henter, hobj, hlive⟩ := hinv.enter hopen
  have hmem := hd.unlocks kind hkind handle ha o hobj object hlive
  have hrecorded : a.self ∈ object.recorded := by
    rw [hinv.recorded hlive]
    exact Multiset.mem_add.2 (.inl (HaCommonObject.mem_holders.2 ⟨kind, hmem⟩))
  have hrelease : ∃ object', releaseLock { object with checksum := calcChecksumObjectBuffer object } a.self = some object' :=
    releaseLock_isSome hrecorded
  obtain ⟨object', hrelease⟩ := hrelease
  exact ⟨o, object, object', henter, hmem, hlive, hrelease⟩

theorem ComLockInv.close (hinv : ComLockInv rank threads s) (hopen : (s.handle.lookup handle).isSome) :
    ∃ s', comClose { s with invoked := [] } handle = some s' := by
  obtain ⟨o, object, henter, hobj, hlive⟩ := hinv.enter hopen
  have henter : ({ s with invoked := [] } : ComState).enter handle = some (o, object) := henter
  -- the object is in the table under its id
  have hkey : (({ s with invoked := [] } : ComState).setObject o object.unref).key = s.key :=
    ComState.key_setObject hlive rfl
  have hfind : (findCommonObject (({ s with invoked := [] } : ComState).setObject o object.unref) object.objectId).isSome := by
    rw [findCommonObject, hkey]
    exact Option.isSome_iff_exists.2 ⟨o, hinv.counted.table.find_eq_some.2 (ComState.key_eq_some.2 ⟨object, hlive, rfl⟩)⟩
  unfold comClose
  simp only [henter, Option.bind_eq_bind, Option.bind_some]
  by_cases hsafe : objectSafeToDelete object.unref = true
  · have hfind : (findCommonObject (({ s with invoked := [] } : ComState).setObject o object.unref)
        object.unref.objectId).isSome := hfind
    rw [if_pos hsafe, deleteCommonObject, if_pos hfind]
    exact ⟨_, rfl⟩
  · rw [if_neg hsafe]
    exact ⟨_, rfl⟩

/-- An action of a thread whose turn it is can be taken, unless the thread waits for a lock. -/
theorem ComLockInv.enabled (hinv : ComLockInv rank threads s) (hcard : threads.card ≤ threadIdRecordNum)
    (hd : Disciplined rank threads s a) (hp : Prepared s a) (hturn : Turn s a) (hwaits : ¬s.Waits a.self) :
    ∃ s', comNext s a = some s' := by
  have hgo : ∀ s', a.run { s with invoked := [] } = some s' → ∃ s', comNext s a = some s' := by
    intro s' hrun
    refine ⟨s', ?_⟩
    have hnone : ∀ self ∈ a.idle, s.calls.lookup self = none := by
      cases a with
      | advance => exact nofun
      | create | openObject | close | registerCallback | deregisterCallback | writerLock | readerLock | writerUnlock
      | readerUnlock | write =>
        rintro _ ⟨⟩
        exact hturn
    have hidle : ¬(a.idle.any fun self => (s.calls.lookup self).isSome) = true := by
      cases hself : a.idle with
      | none => exact nofun
      | some self =>
        rw [Option.any_some, hnone self hself]
        exact nofun
    rw [comNext, if_neg hidle, hrun]
  have hopen : ∀ handle ∈ a.handle, (s.handle.lookup handle).isSome := by
    intro handle hh
    have hused := hd.opened
    cases a with
    | create | openObject | advance => cases hh
    | close => cases hh; exact hused.1
    | registerCallback | deregisterCallback | writerLock | readerLock | writerUnlock | readerUnlock | write =>
      cases hh
      exact hused
  suffices hrun : ∃ s', a.run { s with invoked := [] } = some s' by
    obtain ⟨s', hrun⟩ := hrun
    exact hgo s' hrun
  cases a with
  | create self objectId size buffer new handle => exact hinv.create hcard hd rfl rfl hturn hp
  | openObject self objectId new handle => exact hinv.create hcard hd rfl rfl hturn hp
  | close self handle => exact hinv.close (hopen handle rfl)
  | registerCallback self handle func =>
    obtain ⟨o, object, henter, -, -⟩ := hinv.enter (hopen handle rfl)
    have henter : ({ s with invoked := [] } : ComState).enter handle = some (o, object) := henter
    have hp : func ≠ 0 := hp
    simp only [ComAction.run, comRegisterCallback, henter, Option.bind_eq_bind, Option.bind_some, if_neg hp]
    exact ⟨_, rfl⟩
  | deregisterCallback self handle func =>
    obtain ⟨o, object, henter, hobj, hlive⟩ := hinv.enter (hopen handle rfl)
    have henter : ({ s with invoked := [] } : ComState).enter handle = some (o, object) := henter
    have hany : (object.callbackList.any fun c => decide (c.func = func)) = true := by
      simpa using hp.2 o hobj object hlive
    simp only [ComAction.run, comDeregisterCallback, henter, Option.bind_eq_bind, Option.bind_some, if_neg hp.1,
      deleteCallbackListItem, if_pos hany]
    exact ⟨_, rfl⟩
  | writerLock self handle => exact hinv.lock hcard hd rfl rfl (hopen handle rfl) hturn
  | readerLock self handle => exact hinv.lock hcard hd rfl rfl (hopen handle rfl) hturn
  | writerUnlock self handle =>
    obtain ⟨o, object, object', henter, -, -, hrelease⟩ := hinv.unlock hd rfl rfl (hopen handle rfl)
    have henter : ({ s with invoked := [] } : ComState).enter handle = some (o, object) := henter
    have hrelease : releaseLock { object with checksum := calcChecksumObjectBuffer object } self = some object' := hrelease
    simp only [ComAction.run, comWriterUnlock, henter, Option.bind_eq_bind, Option.bind_some, hrelease]
    exact ⟨_, rfl⟩
  | readerUnlock self handle =>
    obtain ⟨o, object, object', henter, hmem, hlive, hrelease⟩ := hinv.unlock hd rfl rfl (hopen handle rfl)
    have henter : ({ s with invoked := [] } : ComState).enter handle = some (o, object) := henter
    -- where there is a reader the checksum is that of the data
    have hsum : object.checksum = calcChecksumObjectBuffer object := by
      refine hinv.checksum o object hlive fun t hw => ?_
      have hkind := ((hinv.rwlock o object hlive).eq_of_writer hw hmem).1
      cases hkind
    have hrelease : releaseLock object self = some object' := by
      rw [← hsum] at hrelease
      exact hrelease
    simp only [ComAction.run, comReaderUnlock, henter, Option.bind_eq_bind, Option.bind_some, ne_eq, hsum,
      not_true_eq_false, if_false, hrelease]
    exact ⟨_, rfl⟩
  | write self handle buffer =>
    obtain ⟨o, object, -, hobj, hlive⟩ := hinv.enter (hopen handle rfl)
    obtain ⟨old, hold, hlen⟩ := hp o hobj object hlive
    have hmem := hd.writes handle rfl o hobj object hlive
    have hderef : ({ s with invoked := [] } : ComState).deref handle = some (o, object) := ComState.deref_of hobj hlive
    have hcond : (object.rwlock.any (fun e => decide (e.2 = self)) && decide (buffer.length = old.length)) = true := by
      rw [hlen, decide_eq_true rfl, Bool.and_true]
      exact List.any_eq_true.2 ⟨_, hmem, decide_eq_true rfl⟩
    simp only [ComAction.run, writeBuffer, hderef, Option.bind_eq_bind, Option.bind_some, hold, if_pos hcond]
    exact ⟨_, rfl⟩
  | advance self => exact hinv.advance hturn hwaits

/-! ## No deadlock -/

/-- The rank of the lock that the call of a thread asks for. -/
def ComState.waitRank (s : ComState) (rank : CString → Nat) (t : ThreadId) : Nat :=
  (((s.calls.lookup t).bind fun c => s.deref c.handle).map fun e => rank e.2.objectId).getD 0

theorem ComState.WaitsAt.waitRank {t : ThreadId} (h : s.WaitsAt t object) : s.waitRank rank t = rank object.objectId := by
  obtain ⟨c, o, kind, hc, -, hobj, hlive, -⟩ := h
  rw [ComState.waitRank, hc, Option.bind_some, ComState.deref_of hobj hlive]
  rfl

theorem ComCallPc.announces_of_waitsFor {pc : ComCallPc} {kind : LockKind} (h : pc.waitsFor = some kind) :
    pc.announces = true := by
  cases pc with
  | waiting | locking => rfl
  | found | filling | leaving | locked => cases h

/-- A thread that waits waits for one that has the lock; if that one waits too, it waits further up. -/
theorem ComLockInv.waits_for (hinv : ComLockInv rank threads s) {t : ThreadId} (h : s.WaitsAt t object) :
    ∃ t' o kind, s.HasLock o kind t' ∧ ∀ object', s.WaitsAt t' object' → rank object.objectId < rank object'.objectId := by
  obtain ⟨c, o, kind, hc, hpc, hobj, hlive, hfree⟩ := h
  have hne : object.rwlock ≠ [] := by
    intro hnil
    rw [hnil] at hfree
    cases kind <;> cases hfree
  obtain ⟨⟨kind', t'⟩, hmem⟩ := List.exists_mem_of_ne_nil _ hne
  refine ⟨t', o, kind', ⟨object, hlive, hmem⟩, ?_⟩
  rintro object' ⟨c', o', kind'', hc', hpc', hobj', hlive', -⟩
  exact hinv.order t' c' hc' (ComCallPc.announces_of_waitsFor hpc') o' object' hobj' hlive' o object hlive
    (HaCommonObject.mem_holders.2 ⟨kind', hmem⟩)

theorem ComLockInv.exists_holder (hinv : ComLockInv rank threads s) {t : ThreadId} (h : s.Waits t) :
    ∃ t', (∃ o kind, s.HasLock o kind t') ∧ ¬s.Waits t' := by
  have hcall : ∀ t, s.Waits t → t ∈ s.calls.keys := by
    rintro t ⟨_, c, _, _, hc, -⟩
    rw [Finmap.mem_keys, ← Finmap.lookup_isSome, hc]
    rfl
  refine LockOrder.exists_free s.calls.keys s.Waits (fun t' => (∃ o kind, s.HasLock o kind t') ∧ ¬s.Waits t')
    (s.waitRank rank) ?_ (hcall t h) h
  rintro t - ⟨object, hat⟩
  obtain ⟨t', o, kind, hhas, hup⟩ := hinv.waits_for hat
  refine ⟨t', ?_⟩
  by_cases hw : s.Waits t'
  · right
    obtain ⟨object', hat'⟩ := hw
    refine ⟨hcall t' ⟨object', hat'⟩, ⟨object', hat'⟩, ?_⟩
    rw [hat.waitRank, hat'.waitRank]
    exact hup object' hat'
  · exact .inl ⟨⟨o, kind, hhas⟩, hw⟩

end

instance (s : ComState) (handle func : Addr) : Decidable (Prepared s (.deregisterCallback 2 handle func)) :=
  inferInstanceAs (Decidable (func ≠ 0 ∧ s.At handle fun object => ∃ c ∈ object.callbackList, c.func = func))

end Xha
