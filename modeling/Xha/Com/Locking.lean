/-
The lock of a common object (com.c): what a step does to it, to the data and to the checksum. With threads that take
locks in order and unlock what they have, an object has readers or one writer and a reader's data stay
(`com_locks_protect_data`): the thread records say what the lock is (`ComLockInv`), so that whoever writes has it. No
assertion of the object manager fails, and a thread waits only for one that does not wait.
-/
import Xha.Com.RefCount

namespace Xha

open Transition

/-! ## What a step does -/

/-- The thread of an action. -/
def ComAction.self : ComAction → ThreadId
  | .create self .. | .openObject self .. | .close self .. | .registerCallback self .. | .deregisterCallback self ..
  | .writerLock self .. | .readerLock self .. | .writerUnlock self .. | .readerUnlock self .. | .write self ..
  | .advance self => self

/-- The lock that an action asks for, and the one that it gives up. -/
def ComAction.locks : ComAction → Option LockKind
  | .writerLock .. => some .writer
  | .readerLock .. => some .reader
  | _ => none

def ComAction.unlocks : ComAction → Option LockKind
  | .writerUnlock .. => some .writer
  | .readerUnlock .. => some .reader
  | _ => none

/-- The handle through which an action writes the data. -/
def ComAction.writes : ComAction → Option Addr
  | .write _ handle _ => some handle
  | _ => none

/-- Lock, data and checksum stay. -/
structure SameLock (object object' : HaCommonObject) : Prop where
  rwlock : object'.rwlock = object.rwlock
  buffer : object'.buffer = object.buffer
  checksum : object'.checksum = object.checksum

/-- A thread gets the lock. -/
structure Takes (t : ThreadId) (kind : LockKind) (object object' : HaCommonObject) : Prop where
  free : rwlockFree object.rwlock kind = true
  rwlock : object'.rwlock = (kind, t) :: object.rwlock
  buffer : object'.buffer = object.buffer
  checksum : object'.checksum = object.checksum

/-- A thread gives up a lock, and the checksum is that of the data. -/
structure Releases (t : ThreadId) (object object' : HaCommonObject) : Prop where
  rwlock : object'.rwlock = object.rwlock.eraseP (·.2 = t)
  checksum : object'.checksum = calcChecksumObjectBuffer object'

/-- What an action of a thread does to an object, and to where its call stands before and behind it. -/
inductive CallStep (self : ThreadId) (object object' : HaCommonObject) :
    ComAction → Option ComCallPc → Option ComCallPc → Prop
  | callbacks {a : ComAction} : a.idle ≠ none → a.locks = none → a.unlocks = none → SameLock object object' →
    CallStep self object object' a none none
  | unlocks {a : ComAction} {kind : LockKind} : a.unlocks = some kind → Releases self object object' →
    object'.buffer = object.buffer → CallStep self object object' a none none
  | writes {handle : Addr} {buffer : List Byte} : object'.rwlock = object.rwlock → object'.checksum = object.checksum →
    CallStep self object object' (.write self handle buffer) none none
  | locks {a : ComAction} {kind : LockKind} : a.locks = some kind → SameLock object object' →
    CallStep self object object' a none (some (.locking kind))
  | found {a : ComAction} {size : MtcU32} {buffer : Option (List Byte)} : a.opens = some object.objectId →
    SameLock object object' → CallStep self object object' a none (some (.found size buffer))
  | waits {size : MtcU32} {buffer : List Byte} : SameLock object object' →
    CallStep self object object' (.advance self) (some (.found size (some buffer))) (some (.waiting size buffer))
  | leaves {size : MtcU32} {buffer : Option (List Byte)} : SameLock object object' →
    CallStep self object object' (.advance self) (some (.found size buffer)) (some .leaving)
  | takesToFill {size : MtcU32} {buffer : List Byte} : Takes self .writer object object' →
    CallStep self object object' (.advance self) (some (.waiting size buffer)) (some (.filling size buffer))
  | fills {size : MtcU32} {buffer : List Byte} : Releases self object object' →
    CallStep self object object' (.advance self) (some (.filling size buffer)) none
  | left : SameLock object object' → CallStep self object object' (.advance self) (some .leaving) none
  | takes {kind : LockKind} : Takes self kind object object' →
    CallStep self object object' (.advance self) (some (.locking kind)) (some (.locked kind))
  | settles {kind : LockKind} : SameLock object object' →
    CallStep self object object' (.advance self) (some (.locked kind)) none

/-- Where the call of a thread stands. -/
def ComState.pc (s : ComState) (t : ThreadId) : Option ComCallPc := (s.calls.lookup t).map (·.pc)

/-- What a step does: one object changes, with the call of the thread; or an object is created, or one is closed. The
handles that calls use stay, and each handle is valid. -/
inductive LockStep (s : ComState) (a : ComAction) (s' : ComState) : Prop
  | touched {o : Addr} {object object' : HaCommonObject} : s.object o = some object →
    s'.object = Function.update s.object o (some object') → object'.objectId = object.objectId →
    (∀ c ∈ s.calls.lookup a.self, s.objectOf c.handle = some o) →
    (∀ c ∈ s'.calls.lookup a.self, s'.objectOf c.handle = some o) → (∀ handle ∈ a.handle, s.objectOf handle = some o) →
    CallStep a.self object object' a (s.pc a.self) (s'.pc a.self) →
    (∀ handle, s.objectOf handle ≠ none → s'.objectOf handle = s.objectOf handle) →
    (∀ t, t ≠ a.self → s'.calls.lookup t = s.calls.lookup t) → LockStep s a s'
  | created {o : Addr} {object : HaCommonObject} : a.opens = some object.objectId → s.object o = none →
    s'.object = Function.update s.object o (some object) → object.rwlock = [] →
    object.checksum = calcChecksumObjectBuffer object →
    (∀ handle, s.objectOf handle ≠ none → s'.objectOf handle = s.objectOf handle) → s'.calls = s.calls → LockStep s a s'
  | closed {self : ThreadId} {o handle : Addr} {object : HaCommonObject} {x : Option HaCommonObject} :
    a = .close self handle → s.object o = some object → (x = none ∨ x = some object.unref) →
    s'.object = Function.update s.object o x →
    (∀ other, other ≠ handle → s'.objectOf other = s.objectOf other) → s'.calls = s.calls → LockStep s a s'

section

variable {s s' : ComState} {self : ThreadId} {o handle func : Addr} {object object' object'' : HaCommonObject}
  {lockState : LockState} {a : ComAction}

theorem setThreadIdRecord_sameLock (h : setThreadIdRecord object self lockState = some object') : SameLock object object' := by
  obtain ⟨table, -, -, rfl, -⟩ := setThreadIdRecord_spec h
  exact ⟨rfl, rfl, rfl⟩

theorem releaseLock_fields (h : releaseLock object self = some object') :
    object'.rwlock = object.rwlock.eraseP (·.2 = self) ∧ object'.buffer = object.buffer ∧
      object'.checksum = object.checksum := by
  unfold releaseLock at h
  rw [Option.map_eq_some_iff] at h
  obtain ⟨set, hset, rfl⟩ := h
  have hsame := setThreadIdRecord_sameLock hset
  refine ⟨?_, hsame.buffer, hsame.checksum⟩
  rw [rwlockUnlock, hsame.rwlock]

/-- The checksum depends on the data only. -/
theorem calcChecksum_congr (h : object'.buffer = object.buffer) :
    calcChecksumObjectBuffer object' = calcChecksumObjectBuffer object := by
  unfold calcChecksumObjectBuffer
  rw [h]

/-- A thread in no call changes an object. -/
theorem LockStep.of_idle {inv : List Invocation} (hlive : s.object o = some object) (hidle : s.calls.lookup a.self = none)
    (hid : object'.objectId = object.objectId) (hobj : ∀ handle ∈ a.handle, s.objectOf handle = some o)
    (hstep : CallStep a.self object object' a none none) :
    LockStep s a { s.setObject o object' with invoked := inv } := by
  have hpc : s.pc a.self = none := by rw [ComState.pc, hidle]; rfl
  refine .touched hlive rfl hid ?_ ?_ hobj ?_ (fun _ _ => rfl) fun _ _ => rfl
  · rw [hidle]
    exact nofun
  · rintro c hc
    rw [ComState.setObject, hidle] at hc
    cases hc
  · have hpc' : ({ s.setObject o object' with invoked := inv } : ComState).pc a.self = none := hpc
    rw [hpc, hpc']
    exact hstep

/-- A thread in no call enters one. -/
theorem LockStep.of_start {inv : List Invocation} {c : ComCall} (hlive : s.object o = some object)
    (hidle : s.calls.lookup a.self = none) (hid : object'.objectId = object.objectId)
    (hobj : ∀ handle ∈ a.handle, s.objectOf handle = some o) (hc : s.objectOf c.handle = some o)
    (hstep : CallStep a.self object object' a none (some c.pc)) :
    LockStep s a { s.setObject o object' with calls := s.calls.insert a.self c, invoked := inv } := by
  have hpc : s.pc a.self = none := by rw [ComState.pc, hidle]; rfl
  refine .touched hlive rfl hid ?_ ?_ hobj ?_ (fun _ _ => rfl) fun t ht => Finmap.lookup_insert_of_ne _ ht
  · rw [hidle]
    exact nofun
  · rw [Finmap.lookup_insert]
    rintro c' ⟨⟩
    exact hc
  · rw [hpc, ComState.pc, Finmap.lookup_insert]
    exact hstep

/-- A call under way goes on. -/
theorem LockStep.of_go {inv : List Invocation} {c c' : ComCall} (hlive : s.object o = some object)
    (hlookup : s.calls.lookup self = some c) (hid : object'.objectId = object.objectId) (hc : s.objectOf c.handle = some o)
    (hsame : c'.handle = c.handle) (hstep : CallStep self object object' (.advance self) (some c.pc) (some c'.pc)) :
    LockStep s (.advance self) { s.setObject o object' with calls := s.calls.insert self c', invoked := inv } := by
  have hpc : s.pc self = some c.pc := by rw [ComState.pc, hlookup]; rfl
  refine .touched hlive rfl hid ?_ ?_ nofun ?_ (fun _ _ => rfl) fun t ht => Finmap.lookup_insert_of_ne _ ht
  · rw [ComAction.self, hlookup]
    rintro c ⟨⟩
    exact hc
  · rw [ComAction.self, Finmap.lookup_insert]
    rintro c ⟨⟩
    exact hsame ▸ hc
  · rw [ComAction.self, hpc, ComState.pc, Finmap.lookup_insert]
    exact hstep

/-- A call under way returns. -/
theorem LockStep.of_return {inv : List Invocation} {c : ComCall} (hlive : s.object o = some object)
    (hlookup : s.calls.lookup self = some c) (hid : object'.objectId = object.objectId) (hc : s.objectOf c.handle = some o)
    (hstep : CallStep self object object' (.advance self) (some c.pc) none) :
    LockStep s (.advance self) { s.setObject o object' with calls := s.calls.erase self, invoked := inv } := by
  have hpc : s.pc self = some c.pc := by rw [ComState.pc, hlookup]; rfl
  refine .touched hlive rfl hid ?_ ?_ nofun ?_ (fun _ _ => rfl) fun t ht => Finmap.lookup_erase_ne ht
  · rw [ComAction.self, hlookup]
    rintro c ⟨⟩
    exact hc
  · rw [ComAction.self, Finmap.lookup_erase]
    exact nofun
  · rw [ComAction.self, hpc, ComState.pc, Finmap.lookup_erase]
    exact hstep

theorem comAdvance_lockStep (h : comAdvance { s with invoked := [] } self = some s') : LockStep s (.advance self) s' := by
  unfold comAdvance at h
  simp only [Option.bind_eq_bind, Option.bind_eq_some_iff] at h
  obtain ⟨⟨handle, pc⟩, hc, ⟨o, object⟩, hderef, h⟩ := h
  obtain ⟨hobj, hlive⟩ := ComState.deref_eq_some hderef
  have hset : s.setObject o object = s := by
    have hlive : some object = s.object o := hlive.symm
    rw [ComState.setObject, hlive, Function.update_eq_self]
  cases pc with
  | found size buffer =>
    have hgo : ∀ pc : ComCallPc, CallStep self object object (.advance self) (some (.found size buffer)) (some pc) →
        LockStep s (.advance self) { s with calls := s.calls.insert self ⟨handle, pc⟩, invoked := [] } := by
      intro pc hstep
      have hgo : LockStep s (.advance self) { s.setObject o object with
          calls := s.calls.insert self ⟨handle, pc⟩
          invoked := [] } := .of_go hlive hc rfl hobj rfl hstep
      rwa [hset] at hgo
    dsimp only at h
    split at h
    · cases h
      exact hgo _ (.waits ⟨rfl, rfl, rfl⟩)
    · cases h
      exact hgo _ (.leaves ⟨rfl, rfl, rfl⟩)
  | waiting size buffer =>
    simp only [Option.ite_none_right_eq_some, Option.some.injEq] at h
    obtain ⟨hfree, rfl⟩ := h
    have hstep : CallStep self object (rwlockLock object .writer self) (.advance self) (some (.waiting size buffer))
      (some (.filling size buffer)) := .takesToFill ⟨hfree, rfl, rfl, rfl⟩
    exact .of_go hlive hc rfl hobj rfl hstep
  | filling size buffer =>
    simp only [Option.bind_eq_some_iff, Option.some.injEq] at h
    obtain ⟨recorded, hset, object', hrelease, rfl⟩ := h
    have hset_same := setThreadIdRecord_sameLock hset
    have hrelease_same := releaseLock_fields hrelease
    refine .of_return hlive hc ((releaseLock_same hrelease).1.trans (setThreadIdRecord_same hset).1) hobj (.fills ⟨?_, ?_⟩)
    · rw [hrelease_same.1]
      exact congrArg (List.eraseP _) hset_same.rwlock
    · rw [hrelease_same.2.2]
      exact (calcChecksum_congr hrelease_same.2.1).symm
  | leaving =>
    simp only [Option.bind_eq_some_iff, Option.some.injEq] at h
    obtain ⟨object', hset, rfl⟩ := h
    have hsame := setThreadIdRecord_sameLock hset
    exact .of_return hlive hc (setThreadIdRecord_same hset).1 hobj (.left ⟨hsame.rwlock, hsame.buffer, hsame.checksum⟩)
  | locking kind =>
    simp only [Option.ite_none_right_eq_some, Option.some.injEq] at h
    obtain ⟨hfree, rfl⟩ := h
    have hstep : CallStep self object (rwlockLock object kind self) (.advance self) (some (.locking kind))
      (some (.locked kind)) := .takes ⟨hfree, rfl, rfl, rfl⟩
    exact .of_go hlive hc rfl hobj rfl hstep
  | locked kind =>
    simp only [Option.bind_eq_some_iff, Option.some.injEq] at h
    obtain ⟨object', hset, rfl⟩ := h
    exact .of_return hlive hc (setThreadIdRecord_same hset).1 hobj (.settles (setThreadIdRecord_sameLock hset))

theorem comLock_lockStep {kind : LockKind} (hself : a.self = self) (ha : a.handle = some handle) (hkind : a.locks = some kind)
    (hidle : s.calls.lookup self = none) (h : comLock { s with invoked := [] } self kind handle = some s') :
    LockStep s a s' := by
  subst hself
  unfold comLock at h
  simp only [Option.pure_def, Option.bind_eq_bind, Option.bind_eq_some_iff, Option.some.injEq] at h
  obtain ⟨⟨o, object⟩, henter, object', hset, rfl⟩ := h
  obtain ⟨hobj, hlive⟩ := ComState.enter_eq_some henter
  have hsame := setThreadIdRecord_sameLock hset
  refine .of_start hlive hidle (setThreadIdRecord_same hset).1 ?_ hobj ?_
  · rw [ha]
    rintro _ ⟨⟩
    exact hobj
  · exact .locks hkind ⟨hsame.rwlock, hsame.buffer, hsame.checksum⟩

theorem comWriterUnlock_lockStep (hidle : s.calls.lookup self = none)
    (h : comWriterUnlock { s with invoked := [] } self handle = some s') : LockStep s (.writerUnlock self handle) s' := by
  unfold comWriterUnlock at h
  simp only [Option.pure_def, Option.bind_eq_bind, Option.bind_eq_some_iff, Option.some.injEq] at h
  obtain ⟨⟨o, object⟩, henter, object', hrelease, rfl⟩ := h
  obtain ⟨hobj, hlive⟩ := ComState.enter_eq_some henter
  obtain ⟨hlock, hbuffer, hsum⟩ := releaseLock_fields hrelease
  have hbuffer : object'.buffer = object.buffer := hbuffer
  refine .of_idle hlive hidle (releaseLock_same hrelease).1 ?_ (.unlocks rfl ⟨hlock, ?_⟩ hbuffer)
  · rintro _ ⟨⟩
    exact hobj
  · rw [hsum]
    exact (calcChecksum_congr hbuffer).symm

theorem comReaderUnlock_lockStep (hidle : s.calls.lookup self = none)
    (h : comReaderUnlock { s with invoked := [] } self handle = some s') : LockStep s (.readerUnlock self handle) s' := by
  unfold comReaderUnlock at h
  simp only [Option.pure_def, Option.bind_eq_bind, Option.bind_eq_some_iff, Option.ite_none_left_eq_some,
    Option.some.injEq] at h
  obtain ⟨⟨o, object⟩, henter, hchecked, object', hrelease, rfl⟩ := h
  obtain ⟨hobj, hlive⟩ := ComState.enter_eq_some henter
  obtain ⟨hlock, hbuffer, hsum⟩ := releaseLock_fields hrelease
  refine .of_idle hlive hidle (releaseLock_same hrelease).1 ?_ (.unlocks rfl ⟨hlock, ?_⟩ hbuffer)
  · rintro _ ⟨⟩
    exact hobj
  · rw [hsum, calcChecksum_congr hbuffer]
    exact not_not.1 hchecked

theorem writeBuffer_lockStep {buffer : List Byte} (hidle : s.calls.lookup self = none)
    (h : writeBuffer { s with invoked := [] } self handle buffer = some s') : LockStep s (.write self handle buffer) s' := by
  unfold writeBuffer at h
  simp only [Option.pure_def, Option.bind_eq_bind, Option.bind_eq_some_iff, Option.ite_none_right_eq_some,
    Option.some.injEq] at h
  obtain ⟨⟨o, object⟩, hderef, old, -, -, rfl⟩ := h
  obtain ⟨hobj, hlive⟩ := ComState.deref_eq_some hderef
  refine .of_idle hlive hidle rfl ?_ (.writes rfl rfl)
  rintro _ ⟨⟩
  exact hobj

theorem comRegisterCallback_lockStep (hidle : s.calls.lookup self = none)
    (h : comRegisterCallback { s with invoked := [] } handle func = some s') :
    LockStep s (.registerCallback self handle func) s' := by
  unfold comRegisterCallback at h
  simp only [Option.pure_def, Option.bind_eq_bind, Option.bind_eq_some_iff, Option.ite_none_left_eq_some,
    Option.some.injEq] at h
  obtain ⟨⟨o, object⟩, henter, -, rfl⟩ := h
  obtain ⟨hobj, hlive⟩ := ComState.enter_eq_some henter
  refine .of_idle hlive hidle rfl ?_ (.callbacks nofun rfl rfl ⟨rfl, rfl, rfl⟩)
  rintro _ ⟨⟩
  exact hobj

theorem comDeregisterCallback_lockStep (hidle : s.calls.lookup self = none)
    (h : comDeregisterCallback { s with invoked := [] } handle func = some s') :
    LockStep s (.deregisterCallback self handle func) s' := by
  unfold comDeregisterCallback deleteCallbackListItem at h
  simp only [Option.pure_def, Option.bind_eq_bind, Option.bind_eq_some_iff, Option.ite_none_left_eq_some,
    Option.ite_none_right_eq_some, Option.some.injEq] at h
  obtain ⟨⟨o, object⟩, henter, -, object', ⟨-, rfl⟩, rfl⟩ := h
  obtain ⟨hobj, hlive⟩ := ComState.enter_eq_some henter
  refine .of_idle hlive hidle rfl ?_ (.callbacks nofun rfl rfl ⟨rfl, rfl, rfl⟩)
  rintro _ ⟨⟩
  exact hobj

/-- A handle that has just been allocated stands for nothing yet. -/
theorem ComState.objectOf_keep {h : HandleInternal} (hh : s'.handle = s.handle.insert handle h)
    (hfresh : s.handle.lookup handle = none) (other : Addr) (hobj : s.objectOf other ≠ none) :
    s'.objectOf other = s.objectOf other := by
  rw [ComState.objectOf_insert hh, if_neg]
  rintro rfl
  apply hobj
  rw [ComState.objectOf, hfresh]
  rfl

theorem comCreate_lockStep (hinv : ComInv s) {objectId : CString} {size : MtcU32} {buffer : Option (List Byte)} {new : Addr}
    (hself : a.self = self) (ha : a.opens = some objectId) (hno : a.handle = none) (hidle : s.calls.lookup self = none)
    (h : comCreate { s with invoked := [] } self objectId size buffer new handle = some s') : LockStep s a s' := by
  subst hself
  unfold comCreate at h
  split at h
  · cases h
  rename_i hfresh
  have hfresh : handle ≠ 0 ∧ s.handle.lookup handle = none := by simpa using hfresh
  split at h
  · rename_i o hfind
    simp only [Option.pure_def, Option.bind_eq_bind, Option.bind_eq_some_iff, Option.some.injEq] at h
    obtain ⟨object, hlive, object', hset, rfl⟩ := h
    have hlive : s.object o = some object := hlive
    have hsame := setThreadIdRecord_sameLock hset
    obtain ⟨object₀, hlive₀, hid⟩ := ComState.key_eq_some.1 (hinv.table.find_eq_some.1 hfind)
    rw [hlive] at hlive₀
    cases hlive₀
    have hpc : s.pc a.self = none := by rw [ComState.pc, hidle]; rfl
    refine .touched hlive rfl (setThreadIdRecord_same hset).1 ?_ ?_ ?_ ?_ (ComState.objectOf_keep rfl hfresh.2)
      fun t ht => Finmap.lookup_insert_of_ne _ ht
    · rw [hidle]
      exact nofun
    · rw [Finmap.lookup_insert]
      rintro c ⟨⟩
      rw [ComState.objectOf_insert rfl, if_pos rfl]
    · rw [hno]
      exact nofun
    · rw [hpc, ComState.pc, Finmap.lookup_insert]
      exact .found (hid ▸ ha) ⟨hsame.rwlock, hsame.buffer, hsame.checksum⟩
  · split at h
    · cases h
    rename_i hnew
    have hnew : new ≠ 0 ∧ s.object new = none := by simpa using hnew
    cases h
    refine .created ?_ hnew.2 rfl ?_ ?_ (ComState.objectOf_keep rfl hfresh.2) rfl
    · rw [ha]
      cases buffer <;> rfl
    · cases buffer <;> rfl
    · cases buffer <;> rfl

theorem comClose_lockStep (h : comClose { s with invoked := [] } handle = some s') : LockStep s (.close self handle) s' := by
  unfold comClose at h
  simp only [Option.bind_eq_bind, Option.bind_eq_some_iff, Option.map_eq_some_iff] at h
  obtain ⟨⟨o, object⟩, henter, s₁, hs₁, rfl⟩ := h
  obtain ⟨hobj, hlive⟩ := ComState.enter_eq_some henter
  dsimp only at hs₁
  by_cases hsafe : objectSafeToDelete object.unref = true
  · rw [if_pos hsafe, Option.map_eq_some_iff] at hs₁
    obtain ⟨s₂, hdelete, rfl⟩ := hs₁
    unfold deleteCommonObject at hdelete
    rw [Option.ite_none_right_eq_some, Option.some.injEq] at hdelete
    obtain ⟨-, rfl⟩ := hdelete
    refine .closed rfl hlive (.inl rfl) (Function.update_idem ..) (fun other hne => ?_) rfl
    rw [ComState.objectOf_erase rfl, if_neg hne]
    rfl
  · rw [if_neg hsafe] at hs₁
    cases hs₁
    refine .closed rfl hlive (.inr rfl) rfl (fun other hne => ?_) rfl
    rw [ComState.objectOf_erase rfl, if_neg hne]
    rfl

theorem LockStep.of_next (hinv : ComInv s) (h : comNext s a = some s') : LockStep s a s' := by
  unfold comNext at h
  split at h
  · cases h
  rename_i hidle
  have hidle : ∀ self, a.idle = some self → s.calls.lookup self = none := by
    intro self ha
    rw [ha] at hidle
    simpa using hidle
  cases a with
  | create self objectId size buffer new handle => exact comCreate_lockStep hinv rfl rfl rfl (hidle self rfl) h
  | openObject self objectId new handle => exact comCreate_lockStep hinv rfl rfl rfl (hidle self rfl) h
  | close self handle => exact comClose_lockStep h
  | registerCallback self handle func => exact comRegisterCallback_lockStep (hidle self rfl) h
  | deregisterCallback self handle func => exact comDeregisterCallback_lockStep (hidle self rfl) h
  | writerLock self handle => exact comLock_lockStep rfl rfl rfl (hidle self rfl) h
  | readerLock self handle => exact comLock_lockStep rfl rfl rfl (hidle self rfl) h
  | writerUnlock self handle => exact comWriterUnlock_lockStep (hidle self rfl) h
  | readerUnlock self handle => exact comReaderUnlock_lockStep (hidle self rfl) h
  | write self handle buffer => exact writeBuffer_lockStep (hidle self rfl) h
  | advance self => exact comAdvance_lockStep h

/-! ## Discipline -/

/-- The objects of the table. -/
def ComState.objects (s : ComState) : List Addr := (List.range hashTableSize).flatMap s.commonObjectHash

/-- Each object that a thread has locked comes before an object id. -/
def ComState.Before (s : ComState) (rank : CString → Nat) (t : ThreadId) (objectId : CString) : Prop :=
  ∀ o ∈ s.objects, ∀ object ∈ s.object o, t ∈ object.holders → rank object.objectId < rank objectId

/-- The object behind a handle meets a condition. -/
def ComState.At (s : ComState) (handle : Addr) (p : HaCommonObject → Prop) : Prop :=
  ∀ o ∈ s.objectOf handle, ∀ object ∈ s.object o, p object

/-- Data are written with the writer lock. -/
def MayWrite (s : ComState) (a : ComAction) : Prop :=
  ∀ handle ∈ a.writes, s.At handle fun object => (.writer, a.self) ∈ object.rwlock

/-- The calls of the threads use open handles, no object has too many of them; a thread asks for the lock of an object
that comes behind those it has locked, gives up a lock that it has, and writes the data with the writer lock. -/
structure Disciplined (rank : CString → Nat) (threads : Finset ThreadId) (s : ComState) (a : ComAction) : Prop where
  opened : UsesOpen s a
  few : FewHandles s a
  thread : a.self ∈ threads
  creates : ∀ objectId ∈ a.opens, s.Before rank a.self objectId
  locks : a.locks ≠ none → ∀ handle ∈ a.handle, s.At handle fun object => s.Before rank a.self object.objectId
  unlocks : ∀ kind ∈ a.unlocks, ∀ handle ∈ a.handle, s.At handle fun object => (kind, a.self) ∈ object.rwlock
  writes : MayWrite s a

instance (s : ComState) (rank : CString → Nat) (t : ThreadId) (objectId : CString) : Decidable (s.Before rank t objectId) :=
  inferInstanceAs (Decidable (∀ o ∈ s.objects, ∀ object ∈ s.object o, t ∈ object.holders → rank object.objectId < rank objectId))

instance (s : ComState) (handle : Addr) (p : HaCommonObject → Prop) [DecidablePred p] : Decidable (s.At handle p) :=
  inferInstanceAs (Decidable (∀ o ∈ s.objectOf handle, ∀ object ∈ s.object o, p object))

instance (s : ComState) (a : ComAction) : Decidable (MayWrite s a) :=
  inferInstanceAs (Decidable (∀ handle ∈ a.writes, s.At handle fun object => (.writer, a.self) ∈ object.rwlock))

instance (rank : CString → Nat) (threads : Finset ThreadId) (s : ComState) (a : ComAction) :
    Decidable (Disciplined rank threads s a) :=
  decidable_of_iff (UsesOpen s a ∧ FewHandles s a ∧ a.self ∈ threads ∧ (∀ objectId ∈ a.opens, s.Before rank a.self objectId) ∧
    (a.locks ≠ none → ∀ handle ∈ a.handle, s.At handle fun object => s.Before rank a.self object.objectId) ∧
    (∀ kind ∈ a.unlocks, ∀ handle ∈ a.handle, s.At handle fun object => (kind, a.self) ∈ object.rwlock) ∧ MayWrite s a)
    ⟨fun ⟨h₁, h₂, h₃, h₄, h₅, h₆, h₇⟩ => ⟨h₁, h₂, h₃, h₄, h₅, h₆, h₇⟩,
      fun ⟨h₁, h₂, h₃, h₄, h₅, h₆, h₇⟩ => ⟨h₁, h₂, h₃, h₄, h₅, h₆, h₇⟩⟩

/-! ## The invariant -/

/-- Readers, or one writer. -/
def RwOk (rwlock : List (LockKind × ThreadId)) : Prop := (∀ e ∈ rwlock, e.1 = .reader) ∨ ∃ t, rwlock = [(.writer, t)]

/-- The lock that a call has, if it has one. -/
def ComCallPc.has : ComCallPc → Option LockKind
  | .filling .. => some .writer
  | .locked kind => some kind
  | _ => none

structure ComLockInv (rank : CString → Nat) (threads : Finset ThreadId) (s : ComState) : Prop where
  counted : ComInv s
  rwlock : ∀ o object, s.object o = some object → RwOk object.rwlock
  checksum : ∀ o object, s.object o = some object → (∀ t, (.writer, t) ∉ object.rwlock) →
    object.checksum = calcChecksumObjectBuffer object
  once : ∀ o object, s.object o = some object → (object.holders + s.announced o).Nodup
  threads : ∀ o object, s.object o = some object → ∀ t ∈ object.holders + s.announced o, t ∈ threads
  has : ∀ t c kind, s.calls.lookup t = some c → c.pc.has = some kind →
    ∀ o object, s.objectOf c.handle = some o → s.object o = some object → (kind, t) ∈ object.rwlock
  order : ∀ t c, s.calls.lookup t = some c → c.pc.announces = true → ∀ o object, s.objectOf c.handle = some o →
    s.object o = some object → ∀ o' object', s.object o' = some object' → t ∈ object'.holders →
      rank object'.objectId < rank object.objectId
  valid : ∀ handle h, s.handle.lookup handle = some h → validObjectHandle handle h = true

/-! ## What a step keeps -/

/-- What a call adds to the announced locks. -/
def announcing (self : ThreadId) (pc : Option ComCallPc) : Multiset ThreadId := if pc.any (·.announces) then {self} else 0

theorem pending_eq_announcing : pending self (s.calls.lookup self) = announcing self (s.pc self) := by
  rw [pending, announcing, ComState.pc, Option.any_map]

theorem rwlockFree_writer {rwlock : List (LockKind × ThreadId)} (h : rwlockFree rwlock .writer = true) : rwlock = [] :=
  List.isEmpty_iff.1 h

theorem rwlockFree_reader {rwlock : List (LockKind × ThreadId)} (h : rwlockFree rwlock .reader = true) :
    ∀ e ∈ rwlock, e.1 = .reader := by
  intro e he
  exact of_decide_eq_true (List.all_eq_true.1 h e he)

theorem Takes.rwOk {kind : LockKind} (h : Takes self kind object object') : RwOk object'.rwlock := by
  rw [h.rwlock]
  cases kind with
  | reader =>
    left
    intro e he
    rcases List.mem_cons.1 he with rfl | hmem
    · rfl
    · exact rwlockFree_reader h.free e hmem
  | writer =>
    right
    rw [rwlockFree_writer h.free]
    exact ⟨self, rfl⟩

theorem Releases.rwOk (h : Releases self object object') (hok : RwOk object.rwlock) : RwOk object'.rwlock := by
  rw [h.rwlock]
  rcases hok with hread | ⟨t, hone⟩
  · exact .inl fun e he => hread e (List.mem_of_mem_eraseP he)
  · rw [hone]
    by_cases ht : t = self
    · rw [List.eraseP_cons_of_pos (by simpa using ht)]
      exact .inl (List.forall_mem_nil _)
    · rw [List.eraseP_cons_of_neg (by simpa using ht)]
      exact .inr ⟨t, rfl⟩

/-- What a thread does to the lock does not matter to the others. -/
theorem Takes.mem_other {kind kind' : LockKind} {t : ThreadId} (h : Takes self kind object object') (ht : t ≠ self) :
    (kind', t) ∈ object'.rwlock ↔ (kind', t) ∈ object.rwlock := by
  rw [h.rwlock, List.mem_cons]
  refine or_iff_right fun he => ht ?_
  exact congrArg Prod.snd he

theorem Releases.mem_other {kind' : LockKind} {t : ThreadId} (h : Releases self object object') (ht : t ≠ self) :
    (kind', t) ∈ object'.rwlock ↔ (kind', t) ∈ object.rwlock := by
  rw [h.rwlock]
  exact List.mem_eraseP_of_neg (by simpa using ht)

theorem Releases.holders_le (h : Releases self object object') : object'.holders ≤ object.holders := by
  rw [HaCommonObject.holders, h.rwlock, HaCommonObject.holders, Multiset.coe_le]
  exact (List.eraseP_sublist.map _).subperm

theorem Takes.holders {kind : LockKind} (h : Takes self kind object object') : object'.holders = {self} + object.holders := by
  rw [HaCommonObject.holders, h.rwlock]
  rfl

theorem HaCommonObject.holders_congr (h : object'.rwlock = object.rwlock) : object'.holders = object.holders := by
  rw [HaCommonObject.holders, h, HaCommonObject.holders]

theorem SameLock.holders (h : SameLock object object') : object'.holders = object.holders :=
  HaCommonObject.holders_congr h.rwlock

section

variable {before after : Option ComCallPc}

theorem CallStep.rwOk (h : CallStep self object object' a before after) (hok : RwOk object.rwlock) : RwOk object'.rwlock := by
  cases h with
  | callbacks _ _ _ hsame | locks _ hsame | found _ hsame | waits hsame | leaves hsame | left hsame | settles hsame =>
    rwa [hsame.rwlock]
  | writes hlock _ => rwa [hlock]
  | takesToFill htake | takes htake => exact htake.rwOk
  | unlocks _ hrelease _ | fills hrelease => exact hrelease.rwOk hok

theorem CallStep.mem_other {kind : LockKind} {t : ThreadId} (h : CallStep self object object' a before after) (ht : t ≠ self) :
    (kind, t) ∈ object'.rwlock ↔ (kind, t) ∈ object.rwlock := by
  cases h with
  | callbacks _ _ _ hsame | locks _ hsame | found _ hsame | waits hsame | leaves hsame | left hsame | settles hsame =>
    rw [hsame.rwlock]
  | writes hlock _ => rw [hlock]
  | takesToFill htake | takes htake => exact htake.mem_other ht
  | unlocks _ hrelease _ | fills hrelease => exact hrelease.mem_other ht

theorem HaCommonObject.mem_holders {t : ThreadId} : t ∈ object.holders ↔ ∃ kind, (kind, t) ∈ object.rwlock := by
  rw [HaCommonObject.holders, Multiset.mem_coe, List.mem_map]
  constructor
  · rintro ⟨⟨kind, t⟩, hmem, rfl⟩
    exact ⟨kind, hmem⟩
  · rintro ⟨kind, hmem⟩
    exact ⟨_, hmem, rfl⟩

theorem CallStep.holders_other {t : ThreadId} (h : CallStep self object object' a before after) (ht : t ≠ self) :
    t ∈ object'.holders ↔ t ∈ object.holders := by
  rw [HaCommonObject.mem_holders, HaCommonObject.mem_holders]
  exact exists_congr fun kind => h.mem_other ht

/-- The data change in the hands of a writer only, and without one the checksum is right. -/
theorem CallStep.checksum (h : CallStep self object object' a before after)
    (hwrite : ∀ handle buffer, a = .write self handle buffer → (.writer, self) ∈ object.rwlock)
    (hsum : (∀ t, (.writer, t) ∉ object.rwlock) → object.checksum = calcChecksumObjectBuffer object)
    (hno : ∀ t, (.writer, t) ∉ object'.rwlock) : object'.checksum = calcChecksumObjectBuffer object' := by
  cases h with
  | callbacks _ _ _ hsame | locks _ hsame | found _ hsame | waits hsame | leaves hsame | left hsame | settles hsame =>
    rw [hsame.checksum, calcChecksum_congr hsame.buffer]
    exact hsum (hsame.rwlock ▸ hno)
  | writes hlock _ =>
    rw [hlock] at hno
    exact absurd (hwrite _ _ rfl) (hno self)
  | takesToFill htake | takes htake =>
    rw [htake.checksum, calcChecksum_congr htake.buffer]
    refine hsum fun t hmem => hno t ?_
    rw [htake.rwlock]
    exact List.mem_cons_of_mem _ hmem
  | unlocks _ hrelease _ | fills hrelease => exact hrelease.checksum

/-- The data change when they are written or filled in. -/
theorem CallStep.buffer (h : CallStep self object object' a before after) :
    object'.buffer = object.buffer ∨ (∃ handle buffer, a = .write self handle buffer) ∨
      ∃ size buffer, before = some (.filling size buffer) := by
  cases h with
  | callbacks _ _ _ hsame | locks _ hsame | found _ hsame | waits hsame | leaves hsame | left hsame | settles hsame =>
    exact .inl hsame.buffer
  | unlocks _ _ hbuffer => exact .inl hbuffer
  | takesToFill htake | takes htake => exact .inl htake.buffer
  | writes => exact .inr (.inl ⟨_, _, rfl⟩)
  | fills => exact .inr (.inr ⟨_, _, rfl⟩)

/-- A thread is counted once more at an object by an action that asks for its lock only. -/
theorem CallStep.counted (h : CallStep self object object' a before after) :
    (before = none ∧ (a.locks ≠ none ∨ a.opens = some object.objectId) ∧
      object'.holders + announcing self after = {self} + object.holders) ∨
    object'.holders + announcing self after ≤ object.holders + announcing self before := by
  cases h with
  | callbacks _ _ _ hsame | waits hsame | leaves hsame | settles hsame =>
    exact .inr (le_of_eq (congrArg₂ (· + ·) hsame.holders rfl))
  | writes hlock _ => exact .inr (le_of_eq (congrArg₂ (· + ·) (HaCommonObject.holders_congr hlock) rfl))
  | unlocks _ hrelease _ | fills hrelease => exact .inr (Multiset.add_le_add_right hrelease.holders_le)
  | locks hkind hsame =>
    left
    refine ⟨rfl, .inl (by rw [hkind]; exact Option.some_ne_none _), ?_⟩
    rw [hsame.holders, add_comm]
    rfl
  | found hopens hsame =>
    left
    refine ⟨rfl, .inr hopens, ?_⟩
    rw [hsame.holders, add_comm]
    rfl
  | @takesToFill size buffer htake =>
    right
    have hnone : announcing self (some (.filling size buffer)) = 0 := rfl
    rw [htake.holders, hnone, add_zero, add_comm]
    exact le_rfl
  | @takes kind htake =>
    right
    have hnone : announcing self (some (.locked kind)) = 0 := rfl
    rw [htake.holders, hnone, add_zero, add_comm]
    exact le_rfl
  | left hsame =>
    right
    rw [hsame.holders]
    exact Multiset.add_le_add_left (Multiset.zero_le _)

/-- The call that has a lock has it in the object. -/
theorem CallStep.has {kind : LockKind} {pc : ComCallPc} (h : CallStep self object object' a before after)
    (hafter : after = some pc) (hpc : pc.has = some kind) : (kind, self) ∈ object'.rwlock := by
  subst hafter
  cases h with
  | locks | found | waits | leaves => cases hpc
  | takesToFill htake | takes htake =>
    cases hpc
    rw [htake.rwlock]
    exact List.mem_cons_self

end

/-- A call announces a lock that it asks for, or goes on announcing one. -/
theorem CallStep.announces {before after : Option ComCallPc} {pc : ComCallPc}
    (h : CallStep self object object' a before after) (hafter : after = some pc) (hpc : pc.announces = true) :
    SameLock object object' ∧ (a.locks ≠ none ∨ a.opens = some object.objectId ∨
      ∃ pc', before = some pc' ∧ pc'.announces = true) := by
  subst hafter
  cases h with
  | locks hkind hsame => exact ⟨hsame, .inl (by rw [hkind]; exact Option.some_ne_none _)⟩
  | found hopens hsame => exact ⟨hsame, .inr (.inl hopens)⟩
  | waits hsame | leaves hsame => exact ⟨hsame, .inr (.inr ⟨_, rfl, rfl⟩)⟩
  | takesToFill | takes => cases hpc

/-- The calls of the other threads announce what they did. -/
theorem ComState.others_keep (hinv : ComInv s) {t : ThreadId}
    (hkeep : ∀ handle, s.objectOf handle ≠ none → s'.objectOf handle = s.objectOf handle)
    (hcalls : ∀ t', t' ≠ t → s'.calls.lookup t' = s.calls.lookup t') (o : Addr) : s'.others t o = s.others t o := by
  have herase : s'.calls.erase t = s.calls.erase t := by
    refine Finmap.ext_lookup fun t' => ?_
    by_cases ht : t' = t
    · rw [ht, Finmap.lookup_erase, Finmap.lookup_erase]
    · rw [Finmap.lookup_erase_ne ht, Finmap.lookup_erase_ne ht, hcalls t' ht]
  rw [others, herase]
  refine announcedBy_congr fun t' c hc => ?_
  have ht : t' ≠ t := by
    rintro rfl
    rw [Finmap.lookup_erase] at hc
    cases hc
  rw [Finmap.lookup_erase_ne ht] at hc
  exact hkeep _ (hinv.used t' c hc)

/-- With the same calls the same locks are announced. -/
theorem ComState.announced_keep (hcalls : s'.calls = s.calls)
    (hkeep : ∀ t c, s.calls.lookup t = some c → s'.objectOf c.handle = s.objectOf c.handle) (o : Addr) :
    s'.announced o = s.announced o := by
  rw [announced, hcalls]
  exact announcedBy_congr hkeep

theorem ComInv.mem_objects (hinv : ComInv s) (hlive : s.object o = some object) : o ∈ s.objects := by
  have hkey : s.key o = some object.objectId := ComState.key_eq_some.2 ⟨object, hlive, rfl⟩
  exact List.mem_flatMap.2 ⟨_, List.mem_range.2 (calcHash_lt _), hinv.table.mem hkey⟩

variable {rank : CString → Nat} {threads : Finset ThreadId}

/-- What the discipline says of a thread that asks for the lock of an object. -/
theorem Disciplined.before (hinv : ComInv s) (hd : Disciplined rank threads s a)
    (hhandle : ∀ handle ∈ a.handle, s.objectOf handle = some o) (hlive : s.object o = some object)
    (hask : a.locks ≠ none ∨ a.opens = some object.objectId) {o' : Addr} (hlive' : s.object o' = some object')
    (hmem : a.self ∈ object'.holders) : rank object'.objectId < rank object.objectId := by
  have hbefore : s.Before rank a.self object.objectId := by
    rcases hask with hlocks | hopens
    · cases hh : a.handle with
      | none =>
        cases a with
        | writerLock | readerLock => cases hh
        | create | openObject | close | registerCallback | deregisterCallback | writerUnlock | readerUnlock | write
        | advance => exact absurd rfl hlocks
      | some handle => exact hd.locks hlocks handle hh o (hhandle handle hh) object hlive
    · exact hd.creates _ hopens
  exact hbefore o' (hinv.mem_objects hlive') object' hlive' hmem

/-- The objects behind a step that changes one of them. -/
theorem object_update {x : Option HaCommonObject} (hobject : s'.object = Function.update s.object o x) {o' : Addr}
    (hlive : s'.object o' = some object') : (o' = o ∧ x = some object') ∨ (o' ≠ o ∧ s.object o' = some object') := by
  rw [hobject] at hlive
  by_cases ho : o' = o
  · subst ho
    rw [Function.update_self] at hlive
    exact .inl ⟨rfl, hlive⟩
  · rw [Function.update_of_ne ho] at hlive
    exact .inr ⟨ho, hlive⟩

theorem ComLockInv.touched (hinv : ComLockInv rank threads s) (hd : Disciplined rank threads s a) (hcounted : ComInv s')
    (hvalid : ∀ handle h, s'.handle.lookup handle = some h → validObjectHandle handle h = true)
    (hlive : s.object o = some object) (hobject : s'.object = Function.update s.object o (some object'))
    (hid : object'.objectId = object.objectId) (hon : ∀ c ∈ s.calls.lookup a.self, s.objectOf c.handle = some o)
    (hon' : ∀ c ∈ s'.calls.lookup a.self, s'.objectOf c.handle = some o)
    (hhandle : ∀ handle ∈ a.handle, s.objectOf handle = some o)
    (hstep : CallStep a.self object object' a (s.pc a.self) (s'.pc a.self))
    (hkeep : ∀ handle, s.objectOf handle ≠ none → s'.objectOf handle = s.objectOf handle)
    (hcalls : ∀ t, t ≠ a.self → s'.calls.lookup t = s.calls.lookup t) : ComLockInv rank threads s' := by
  have hothers := ComState.others_keep hinv.counted hkeep hcalls
  have hannounced : ∀ o', s.announced o' = (if o' = o then announcing a.self (s.pc a.self) else 0) + s.others a.self o' := by
    intro o'
    rw [ComState.announced_eq hon, pending_eq_announcing]
  have hannounced' : ∀ o', s'.announced o' = (if o' = o then announcing a.self (s'.pc a.self) else 0) + s.others a.self o' := by
    intro o'
    rw [ComState.announced_eq hon', pending_eq_announcing, hothers]
  have hother : ∀ o', o' ≠ o → s'.announced o' = s.announced o' := by
    intro o' ho
    rw [hannounced, hannounced', if_neg ho, if_neg ho]
  -- the threads at the object: those that were there, and perhaps the one that asks for its lock
  have hat : (a.self ∉ object.holders + s.announced o ∧
        object'.holders + s'.announced o = {a.self} + (object.holders + s.announced o)) ∨
      object'.holders + s'.announced o ≤ object.holders + s.announced o := by
    rw [hannounced, hannounced', if_pos rfl, if_pos rfl, ← add_assoc, ← add_assoc]
    rcases hstep.counted with ⟨hbefore, hask, heq⟩ | hle
    · left
      rw [hbefore] at *
      have hnone : announcing a.self none = 0 := rfl
      rw [hnone, add_zero, heq, add_assoc]
      refine ⟨fun hmem => ?_, rfl⟩
      rcases Multiset.mem_add.1 hmem with hmem | hmem
      · exact absurd (hd.before hinv.counted hhandle hlive hask hlive hmem) (lt_irrefl _)
      · exact ComState.not_mem_others hmem
    · exact .inr (Multiset.add_le_add_right hle)
  have hcallOf : ∀ t c, t ≠ a.self → s'.calls.lookup t = some c →
      s.calls.lookup t = some c ∧ s'.objectOf c.handle = s.objectOf c.handle := by
    intro t c ht hc
    rw [hcalls t ht] at hc
    exact ⟨hc, hkeep _ (hinv.counted.used t c hc)⟩
  have hown : ∀ c o' object'', s'.calls.lookup a.self = some c → s'.objectOf c.handle = some o' →
      s'.object o' = some object'' → o' = o ∧ object'' = object' := by
    intro c o' object'' hc hobj hlive'
    rw [hon' c hc] at hobj
    cases hobj
    rw [hobject, Function.update_self] at hlive'
    exact ⟨rfl, (Option.some.inj hlive').symm⟩
  refine ⟨hcounted, ?_, ?_, ?_, ?_, ?_, ?_, hvalid⟩
  · intro o' object'' hlive'
    rcases object_update hobject hlive' with ⟨rfl, ⟨⟩⟩ | ⟨-, hlive'⟩
    · exact hstep.rwOk (hinv.rwlock o' object hlive)
    · exact hinv.rwlock o' object'' hlive'
  · intro o' object'' hlive' hno
    rcases object_update hobject hlive' with ⟨rfl, ⟨⟩⟩ | ⟨-, hlive'⟩
    · refine hstep.checksum (fun handle buffer ha => ?_) (hinv.checksum o' object hlive) hno
      have hmem : handle ∈ a.handle := by
        rw [ha]
        rfl
      exact hd.writes handle (by rw [ha]; rfl) o' (hhandle handle hmem) object hlive
    · exact hinv.checksum o' object'' hlive' hno
  · intro o' object'' hlive'
    rcases object_update hobject hlive' with ⟨rfl, ⟨⟩⟩ | ⟨ho, hlive'⟩
    · rcases hat with ⟨hnot, heq⟩ | hle
      · rw [heq, Multiset.singleton_add, Multiset.nodup_cons]
        exact ⟨hnot, hinv.once o' object hlive⟩
      · exact Multiset.nodup_of_le hle (hinv.once o' object hlive)
    · rw [hother o' ho]
      exact hinv.once o' object'' hlive'
  · intro o' object'' hlive' t ht
    rcases object_update hobject hlive' with ⟨rfl, ⟨⟩⟩ | ⟨ho, hlive'⟩
    · rcases hat with ⟨-, heq⟩ | hle
      · rw [heq, Multiset.singleton_add, Multiset.mem_cons] at ht
        rcases ht with rfl | ht
        · exact hd.thread
        · exact hinv.threads o' object hlive t ht
      · exact hinv.threads o' object hlive t (Multiset.mem_of_le hle ht)
    · rw [hother o' ho] at ht
      exact hinv.threads o' object'' hlive' t ht
  · intro t c kind hc hpc o' object'' hobj hlive'
    by_cases ht : t = a.self
    · subst ht
      obtain ⟨rfl, rfl⟩ := hown c o' object'' hc hobj hlive'
      exact hstep.has (by rw [ComState.pc, hc]; rfl) hpc
    · obtain ⟨hc', hsame⟩ := hcallOf t c ht hc
      rw [hsame] at hobj
      rcases object_update hobject hlive' with ⟨rfl, ⟨⟩⟩ | ⟨-, hlive'⟩
      · exact (hstep.mem_other ht).2 (hinv.has t c kind hc' hpc o' object hobj hlive)
      · exact hinv.has t c kind hc' hpc o' object'' hobj hlive'
  · intro t c hc hpc o' object'' hobj hlive' o₂ object₂ hlive₂ hmem
    by_cases ht : t = a.self
    · subst ht
      obtain ⟨rfl, rfl⟩ := hown c o' object'' hc hobj hlive'
      obtain ⟨hsame, hask⟩ := hstep.announces (by rw [ComState.pc, hc]; rfl) hpc
      -- what the thread has locked is what it had
      obtain ⟨object₂', hlive₂', hid₂, hmem₂⟩ : ∃ object₂', s.object o₂ = some object₂' ∧
          object₂'.objectId = object₂.objectId ∧ a.self ∈ object₂'.holders := by
        rcases object_update hobject hlive₂ with ⟨rfl, ⟨⟩⟩ | ⟨-, hlive₂⟩
        · exact ⟨object, hlive, hid.symm, hsame.holders ▸ hmem⟩
        · exact ⟨object₂, hlive₂, rfl, hmem⟩
      rw [← hid₂, hid]
      rcases hask with hlocks | hopens | ⟨pc', hbefore, hpc'⟩
      · exact hd.before hinv.counted hhandle hlive (.inl hlocks) hlive₂' hmem₂
      · exact hd.before hinv.counted hhandle hlive (.inr hopens) hlive₂' hmem₂
      · obtain ⟨c', hc', rfl⟩ := Option.map_eq_some_iff.1 hbefore
        exact hinv.order a.self c' hc' hpc' o' object (hon c' hc') hlive o₂ object₂' hlive₂' hmem₂
    · obtain ⟨hc', hsame⟩ := hcallOf t c ht hc
      rw [hsame] at hobj
      obtain ⟨object₂', hlive₂', hid₂, hmem₂⟩ : ∃ object₂', s.object o₂ = some object₂' ∧
          object₂'.objectId = object₂.objectId ∧ t ∈ object₂'.holders := by
        rcases object_update hobject hlive₂ with ⟨rfl, ⟨⟩⟩ | ⟨-, hlive₂⟩
        · exact ⟨object, hlive, hid.symm, (hstep.holders_other ht).1 hmem⟩
        · exact ⟨object₂, hlive₂, rfl, hmem⟩
      rw [← hid₂]
      rcases object_update hobject hlive' with ⟨rfl, ⟨⟩⟩ | ⟨-, hlive'⟩
      · rw [hid]
        exact hinv.order t c hc' hpc o' object hobj hlive o₂ object₂' hlive₂' hmem₂
      · exact hinv.order t c hc' hpc o' object'' hobj hlive' o₂ object₂' hlive₂' hmem₂

/-- An object comes, goes, or has one handle less; the calls and the other objects stay. -/
theorem ComLockInv.quiet (hinv : ComLockInv rank threads s) (hcounted : ComInv s')
    (hvalid : ∀ handle h, s'.handle.lookup handle = some h → validObjectHandle handle h = true) (hcalls : s'.calls = s.calls)
    (hkeep : ∀ t c, s.calls.lookup t = some c → s'.objectOf c.handle = s.objectOf c.handle)
    (hnew : ∀ o object', s'.object o = some object' →
      (∃ object, s.object o = some object ∧ object'.objectId = object.objectId ∧ SameLock object object') ∨
        s.object o = none ∧ object'.rwlock = [] ∧ object'.checksum = calcChecksumObjectBuffer object') :
    ComLockInv rank threads s' := by
  have hannounced := ComState.announced_keep hcalls hkeep
  have hcallOf : ∀ t c, s'.calls.lookup t = some c → s.calls.lookup t = some c ∧ s'.objectOf c.handle = s.objectOf c.handle := by
    intro t c hc
    rw [hcalls] at hc
    exact ⟨hc, hkeep t c hc⟩
  -- at a new object there is no thread
  have hfresh : ∀ (o : Addr) (object' : HaCommonObject), s.object o = none → object'.rwlock = [] → object'.holders + s'.announced o = 0 := by
    intro o object' hnone hlock
    rw [HaCommonObject.holders, hlock, hannounced, (hinv.counted.counts_free hnone).2]
    rfl
  have hheld : ∀ o object' t, s'.object o = some object' → t ∈ object'.holders →
      ∃ object, s.object o = some object ∧ object.objectId = object'.objectId ∧ t ∈ object.holders := by
    intro o object' t hlive hmem
    rcases hnew o object' hlive with ⟨object, hlive, hid, hsame⟩ | ⟨-, hlock, -⟩
    · exact ⟨object, hlive, hid.symm, hsame.holders ▸ hmem⟩
    · rw [HaCommonObject.holders, hlock] at hmem
      exact absurd hmem (Multiset.notMem_zero t)
  have hold : ∀ t c o object', s.calls.lookup t = some c → s.objectOf c.handle = some o → s'.object o = some object' →
      ∃ object, s.object o = some object ∧ object'.objectId = object.objectId ∧ SameLock object object' := by
    intro t c o object' hc hobj hlive
    refine (hnew o object' hlive).resolve_right ?_
    rintro ⟨hnone, -, -⟩
    exact hinv.counted.live _ o hobj hnone
  refine ⟨hcounted, ?_, ?_, ?_, ?_, ?_, ?_, hvalid⟩
  · intro o object' hlive
    rcases hnew o object' hlive with ⟨object, hlive, -, hsame⟩ | ⟨-, hlock, -⟩
    · rw [hsame.rwlock]
      exact hinv.rwlock o object hlive
    · rw [hlock]
      exact .inl (List.forall_mem_nil _)
  · intro o object' hlive hno
    rcases hnew o object' hlive with ⟨object, hlive, -, hsame⟩ | ⟨-, -, hsum⟩
    · rw [hsame.checksum, calcChecksum_congr hsame.buffer]
      exact hinv.checksum o object hlive (hsame.rwlock ▸ hno)
    · exact hsum
  · intro o object' hlive
    rcases hnew o object' hlive with ⟨object, hlive, -, hsame⟩ | ⟨hnone, hlock, -⟩
    · rw [hsame.holders, hannounced]
      exact hinv.once o object hlive
    · rw [hfresh o object' hnone hlock]
      exact Multiset.nodup_zero
  · intro o object' hlive t ht
    rcases hnew o object' hlive with ⟨object, hlive, -, hsame⟩ | ⟨hnone, hlock, -⟩
    · rw [hsame.holders, hannounced] at ht
      exact hinv.threads o object hlive t ht
    · rw [hfresh o object' hnone hlock] at ht
      exact absurd ht (Multiset.notMem_zero t)
  · intro t c kind hc hpc o object' hobj hlive
    obtain ⟨hc, hkept⟩ := hcallOf t c hc
    rw [hkept] at hobj
    obtain ⟨object, hlive, -, hsame⟩ := hold t c o object' hc hobj hlive
    rw [hsame.rwlock]
    exact hinv.has t c kind hc hpc o object hobj hlive
  · intro t c hc hpc o object' hobj hlive o₂ object₂ hlive₂ hmem
    obtain ⟨hc, hkept⟩ := hcallOf t c hc
    rw [hkept] at hobj
    obtain ⟨object, hlive, hid, -⟩ := hold t c o object' hc hobj hlive
    obtain ⟨object₂', hlive₂, hid₂, hmem⟩ := hheld o₂ object₂ t hlive₂ hmem
    rw [hid, ← hid₂]
    exact hinv.order t c hc hpc o object hobj hlive o₂ object₂' hlive₂ hmem

theorem comCreate_valid {objectId : CString} {size : MtcU32} {buffer : Option (List Byte)} {new : Addr}
    (hvalid : ∀ handle h, s.handle.lookup handle = some h → validObjectHandle handle h = true)
    (h : comCreate { s with invoked := [] } self objectId size buffer new handle = some s') (other : Addr) (x : HandleInternal)
    (hx : s'.handle.lookup other = some x) : validObjectHandle other x = true := by
  have hinsert : handle ≠ 0 ∧ ∃ o, s'.handle = s.handle.insert handle ⟨o, haCommonObjectMagic⟩ := by
    unfold comCreate at h
    split at h
    · cases h
    rename_i hfresh
    have hfresh : handle ≠ 0 ∧ s.handle.lookup handle = none := by simpa using hfresh
    refine ⟨hfresh.1, ?_⟩
    split at h
    · simp only [Option.pure_def, Option.bind_eq_bind, Option.bind_eq_some_iff, Option.some.injEq] at h
      obtain ⟨object, -, object', -, rfl⟩ := h
      exact ⟨_, rfl⟩
    · split at h
      · cases h
      · cases h
        exact ⟨new, rfl⟩
  obtain ⟨hne, o, hh⟩ := hinsert
  rw [hh] at hx
  by_cases he : other = handle
  · subst he
    rw [Finmap.lookup_insert] at hx
    cases hx
    simpa [validObjectHandle] using hne
  · rw [Finmap.lookup_insert_of_ne _ he] at hx
    exact hvalid other x hx

/-- Every handle is one that the object manager has given out. -/
theorem valid_next (hvalid : ∀ handle h, s.handle.lookup handle = some h → validObjectHandle handle h = true)
    (hn : comNext s a = some s') (other : Addr) (x : HandleInternal) (hx : s'.handle.lookup other = some x) :
    validObjectHandle other x = true := by
  have hrun : a.run { s with invoked := [] } = some s' := by
    unfold comNext at hn
    split at hn
    · cases hn
    · exact hn
  have herase : ∀ handle, (s.handle.erase handle).lookup other = some x → s.handle.lookup other = some x := by
    intro handle hx
    by_cases he : other = handle
    · subst he
      rw [Finmap.lookup_erase] at hx
      cases hx
    · rwa [Finmap.lookup_erase_ne he] at hx
  cases ComMove.of_next hn with
  | touched ht _ _ _ =>
    rw [ht.handle] at hx
    exact hvalid other x hx
  | closed | freed => exact hvalid other x (herase _ hx)
  | found ha | created ha =>
    cases a with
    | create | openObject => exact comCreate_valid hvalid hrun other x hx
    | close | registerCallback | deregisterCallback | writerLock | readerLock | writerUnlock | readerUnlock | write
    | advance => cases ha

theorem ComLockInv.next (hinv : ComLockInv rank threads s) (hd : Disciplined rank threads s a) (hn : comNext s a = some s') :
    ComLockInv rank threads s' := by
  have hcounted := hinv.counted.next hd.opened hd.few hn
  have hvalid := valid_next hinv.valid hn
  cases LockStep.of_next hinv.counted hn with
  | touched hlive hobject hid hon hon' hhandle hstep hkeep hcalls =>
    exact hinv.touched hd hcounted hvalid hlive hobject hid hon hon' hhandle hstep hkeep hcalls
  | created hopens hnone hobject hlock hsum hkeep hcalls =>
    refine hinv.quiet hcounted hvalid hcalls (fun t c hc => hkeep _ (hinv.counted.used t c hc)) fun o' object' hlive => ?_
    rcases object_update hobject hlive with ⟨rfl, ⟨⟩⟩ | ⟨-, hlive⟩
    · exact .inr ⟨hnone, hlock, hsum⟩
    · exact .inl ⟨object', hlive, rfl, rfl, rfl, rfl⟩
  | @closed self o handle object x ha hlive hx hobject hkeep hcalls =>
    subst ha
    refine hinv.quiet hcounted hvalid hcalls (fun t c hc => hkeep _ ?_) fun o' object' hlive' => ?_
    · exact hd.opened.2 ⟨t, c⟩ (Finmap.mem_lookup_iff.1 hc)
    · rcases object_update hobject hlive' with ⟨rfl, hx'⟩ | ⟨-, hlive'⟩
      · rcases hx with rfl | rfl
        · cases hx'
        · cases hx'
          exact .inl ⟨object, hlive, rfl, rfl, rfl, rfl⟩
      · exact .inl ⟨object', hlive', rfl, rfl, rfl, rfl⟩

theorem ComLockInv.initial : ComLockInv rank threads .initial := by
  refine ⟨.initial, nofun, nofun, nofun, nofun, ?_, ?_, ?_⟩
  · intro t c kind hc
    cases hc
  · intro t c hc
    cases hc
  · intro handle h hh
    cases hh

theorem ComLockInv.of_reach (h : comManager.Reach (Disciplined rank threads) s) : ComLockInv rank threads s :=
  h.inv (fun _ h0 => h0 ▸ .initial) fun _ _ _ hinv hd hn => hinv.next hd hn

/-! ## The data -/

/-- A thread has a lock of the object at an address. -/
def ComState.HasLock (s : ComState) (o : Addr) (kind : LockKind) (t : ThreadId) : Prop :=
  ∃ object, s.object o = some object ∧ (kind, t) ∈ object.rwlock

/-- Where a reader is, no writer is; and a writer is alone. -/
theorem RwOk.eq_of_writer {rwlock : List (LockKind × ThreadId)} (h : RwOk rwlock) {t t' : ThreadId} {kind : LockKind}
    (hw : (.writer, t) ∈ rwlock) (hmem : (kind, t') ∈ rwlock) : kind = .writer ∧ t' = t := by
  rcases h with hread | ⟨t₀, hone⟩
  · cases hread _ hw
  · rw [hone, List.mem_singleton] at hw hmem
    cases hw
    cases hmem
    exact ⟨rfl, rfl⟩

/-- The data of an object stay while another thread has a lock of it, and in the hands of a reader. -/
theorem ComLockInv.data_step (hinv : ComLockInv rank threads s) (hd : Disciplined rank threads s a) (hn : comNext s a = some s')
    {kind : LockKind} {t : ThreadId} (hlive : s.object o = some object) (hmem : (kind, t) ∈ object.rwlock)
    (hwho : kind = .reader ∨ a.self ≠ t) : ∃ object', s'.object o = some object' ∧ object'.buffer = object.buffer := by
  -- a step that writes the data is one of a thread with the writer lock
  have hwriter : (.writer, a.self) ∉ object.rwlock := by
    intro hw
    obtain ⟨hkind, ht⟩ := (hinv.rwlock o object hlive).eq_of_writer hw hmem
    rcases hwho with hreader | hne
    · rw [hkind] at hreader
      cases hreader
    · exact hne ht.symm
  cases LockStep.of_next hinv.counted hn with
  | @touched o₁ object₁ object₁' hlive₁ hobject hid hon hon' hhandle hstep hkeep hcalls =>
    rw [hobject]
    by_cases ho : o = o₁
    · subst ho
      rw [hlive] at hlive₁
      cases hlive₁
      refine ⟨object₁', Function.update_self .., ?_⟩
      rcases hstep.buffer with hsame | ⟨handle, buffer, ha⟩ | ⟨size, buffer, hbefore⟩
      · exact hsame
      · have hhandle' : handle ∈ a.handle := by rw [ha]; rfl
        exact absurd (hd.writes handle (by rw [ha]; rfl) o (hhandle handle hhandle') object hlive) hwriter
      · obtain ⟨c, hc, hpc⟩ := Option.map_eq_some_iff.1 hbefore
        exact absurd (hinv.has _ c .writer hc (by rw [hpc]; rfl) o object (hon c hc) hlive) hwriter
    · exact ⟨object, by rw [Function.update_of_ne ho, hlive], rfl⟩
  | @created o₁ object₁ hopens hnone hobject hlock hsum hkeep hcalls =>
    have ho : o ≠ o₁ := by
      rintro rfl
      rw [hnone] at hlive
      cases hlive
    exact ⟨object, by rw [hobject, Function.update_of_ne ho, hlive], rfl⟩
  | @closed self o₁ handle object₁ x ha hlive₁ hx hobject hkeep hcalls =>
    rcases hinv.counted.next_object hd.opened hn hlive with ⟨object', hlive', -⟩ | ⟨-, _, _, -, -, -, hlock, -⟩
    · refine ⟨object', hlive', ?_⟩
      rcases object_update hobject hlive' with ⟨rfl, hx'⟩ | ⟨-, hlive'⟩
      · rw [hlive] at hlive₁
        cases hlive₁
        rcases hx with rfl | rfl
        · cases hx'
        · cases hx'
          rfl
      · rw [hlive] at hlive'
        cases hlive'
        rfl
    · rw [hlock] at hmem
      exact absurd hmem List.not_mem_nil

/-- In every run of threads that keep the discipline: an object has readers or one writer, and without a writer its
checksum is that of its data; from there on, the data stay as long as a thread has the reader lock, and are changed by no
other thread as long as a thread has the writer lock. -/
theorem com_locks_protect_data (h : comManager.Reach (Disciplined rank threads) s) :
    (∀ o object, s.object o = some object → RwOk object.rwlock ∧
      ((∀ t, (.writer, t) ∉ object.rwlock) → object.checksum = calcChecksumObjectBuffer object)) ∧
    ∀ o object kind t steps s', s.object o = some object → comManager.Trace s steps s' →
      (∀ p ∈ steps, Disciplined rank threads p.1 p.2 ∧ p.1.HasLock o kind t ∧ (kind = .reader ∨ p.2.self ≠ t)) →
      ∃ object', s'.object o = some object' ∧ object'.buffer = object.buffer := by
  have hinv := ComLockInv.of_reach h
  refine ⟨fun o object hlive => ⟨hinv.rwlock o object hlive, hinv.checksum o object hlive⟩, ?_⟩
  intro o object kind t steps s' hlive htrace hsteps
  have hkept := htrace.inv
    (fun s a => Disciplined rank threads s a ∧ s.HasLock o kind t ∧ (kind = .reader ∨ a.self ≠ t))
    (fun s => ComLockInv rank threads s ∧ ∃ object', s.object o = some object' ∧ object'.buffer = object.buffer)
    ?_ hsteps ⟨hinv, object, hlive, rfl⟩
  · exact hkept.2.2
  · rintro s₁ s₂ a ⟨hinv₁, object₁, hlive₁, hbuffer⟩ ⟨hd, ⟨object₁', hlive₁', hmem⟩, hwho⟩ hn
    rw [hlive₁] at hlive₁'
    cases hlive₁'
    obtain ⟨object₂, hlive₂, hbuffer₂⟩ := hinv₁.data_step hd hn hlive₁ hmem hwho
    exact ⟨hinv₁.next hd hn, object₂, hlive₂, hbuffer₂.trans hbuffer⟩

/-! ## Two threads -/

/-- Thread 1 creates an object of one byte, and thread 2 locks it for reading. -/
def readByTwo (objectId : CString) : List ComAction :=
  [.create 1 objectId 1 (some [7]) 10 11, .readerLock 2 11, .advance 2, .advance 2]

theorem com_locks_protect_data_of_two : ∃ s s' object, comManager.Trace s [(s, .readerLock 1 11)] s' ∧
    s.object 10 = some object ∧ (.reader, 2) ∈ object.rwlock ∧ ∃ object', s'.object 10 = some object' ∧
      object'.buffer = object.buffer := by
  have hrun : ∃ s, comManager.Reach (Disciplined (fun _ => 0) {1, 2}) s ∧
      (decide (Disciplined (fun _ => 0) {1, 2} s (.readerLock 1 11)) && (comNext s (.readerLock 1 11)).isSome &&
        decide (∃ object ∈ s.object 10, (.reader, 2) ∈ object.rwlock)) = true :=
    Machine.reach_of_check rfl (readByTwo ⟨['o'], by decide⟩) _ (by decide +kernel)
  obtain ⟨s, hs, hp⟩ := hrun
  simp only [Bool.and_eq_true, decide_eq_true_eq] at hp
  obtain ⟨⟨hd, hnext⟩, object, hlive, hmem⟩ := hp
  obtain ⟨s', hn⟩ := Option.isSome_iff_exists.1 hnext
  have htrace : comManager.Trace s [(s, .readerLock 1 11)] s' := .cons hn .nil
  refine ⟨s, s', object, htrace, hlive, hmem, ?_⟩
  refine (com_locks_protect_data hs).2 10 object .reader 2 _ s' hlive htrace fun p hp => ?_
  rw [List.mem_singleton] at hp
  subst hp
  exact ⟨hd, ⟨object, hlive, hmem⟩, .inl rfl⟩

end

end Xha
