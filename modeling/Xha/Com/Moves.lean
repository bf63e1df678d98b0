/-
What the calls of the object manager do to an object and to the state: the thread records and the two counters move
together with the lock, and each step is one of five moves.
-/
import Xha.Com.Manager

namespace Xha

open Transition

/-! ## The records of an object -/

/-- The threads in the records of a table. -/
def recordedIn (l : List ThreadIdRecord) : Multiset ThreadId :=
  (l.filter (·.lockState ≠ .none)).map (·.threadId)

def HaCommonObject.recorded (object : HaCommonObject) : Multiset ThreadId := recordedIn object.threadIdRecordTable

/-- The threads that have the lock, once for each lock. -/
def HaCommonObject.holders (object : HaCommonObject) : Multiset ThreadId := object.rwlock.map (·.2)

/-- The thread in one record. -/
def ThreadIdRecord.thread (r : ThreadIdRecord) : Multiset ThreadId := if r.lockState = .none then 0 else {r.threadId}

theorem recordedIn_middle (l₁ l₂ : List ThreadIdRecord) (r : ThreadIdRecord) :
    recordedIn (l₁ ++ r :: l₂) = r.thread + recordedIn (l₁ ++ l₂) := by
  have hperm : (l₁ ++ r :: l₂).Perm (r :: (l₁ ++ l₂)) := List.perm_middle
  have hcoe : recordedIn (l₁ ++ r :: l₂) = recordedIn (r :: (l₁ ++ l₂)) :=
    Multiset.coe_eq_coe.2 ((hperm.filter _).map _)
  rw [hcoe, recordedIn, ThreadIdRecord.thread, recordedIn]
  by_cases hr : r.lockState = .none
  · rw [List.filter_cons_of_neg (by simp [hr]), if_pos hr, zero_add]
  · rw [List.filter_cons_of_pos (by simp [hr]), if_neg hr, List.map_cons, Multiset.singleton_add, Multiset.cons_coe]

section

variable {object object' : HaCommonObject} {self : ThreadId} {lockState : LockState} {kind : LockKind} {n : Nat}
  {announced : Multiset ThreadId}

/-- One record of the table is set: the thread in it goes out and the caller comes in. -/
theorem setThreadIdRecord_spec (h : setThreadIdRecord object self lockState = some object') :
    ∃ (table : List ThreadIdRecord) (r : ThreadIdRecord) (rest : Multiset ThreadId),
      object' = { object with threadIdRecordTable := table } ∧ table.length = object.threadIdRecordTable.length ∧
      r.found self lockState = true ∧ object.recorded = r.thread + rest ∧
      recordedIn table = ThreadIdRecord.thread ⟨lockState, self⟩ + rest := by
  unfold setThreadIdRecord at h
  split at h
  · rename_i hany
    obtain ⟨r, hr, hfound⟩ := List.any_eq_true.1 hany
    obtain ⟨r', new, l₁, l₂, -, hset, hl, hl'⟩ :=
      List.exists_of_replaceF (p := (·.set self lockState)) hr (if_pos hfound)
    have hnew : r'.found self lockState = true ∧ (⟨lockState, self⟩ : ThreadIdRecord) = new := by
      simpa [ThreadIdRecord.set] using hset
    obtain ⟨hfound', rfl⟩ := hnew
    cases h
    refine ⟨_, r', recordedIn (l₁ ++ l₂), rfl, List.length_replaceF, hfound', ?_, ?_⟩
    · rw [HaCommonObject.recorded, hl, recordedIn_middle]
    · rw [hl', recordedIn_middle]
  · cases h

theorem setThreadIdRecord_acquiring (h : setThreadIdRecord object self kind.acquiring = some object') :
    ∃ table, object' = { object with threadIdRecordTable := table } ∧
      table.length = object.threadIdRecordTable.length ∧ recordedIn table = {self} + object.recorded := by
  obtain ⟨table, r, rest, rfl, hlen, hfound, hrec, htable⟩ := setThreadIdRecord_spec h
  refine ⟨table, rfl, hlen, ?_⟩
  -- the record was free
  have hr : r.lockState = .none := by cases kind <;> simpa [ThreadIdRecord.found, LockKind.acquiring] using hfound
  have hself : ThreadIdRecord.thread ⟨kind.acquiring, self⟩ = {self} := by cases kind <;> rfl
  rw [htable, hself, hrec, ThreadIdRecord.thread, if_pos hr, zero_add]

theorem setThreadIdRecord_acquired (h : setThreadIdRecord object self kind.acquired = some object') :
    ∃ table, object' = { object with threadIdRecordTable := table } ∧
      table.length = object.threadIdRecordTable.length ∧ recordedIn table = object.recorded := by
  obtain ⟨table, r, rest, rfl, hlen, hfound, hrec, htable⟩ := setThreadIdRecord_spec h
  refine ⟨table, rfl, hlen, ?_⟩
  have hr : r.lockState ≠ .none ∧ r.threadId = self := by
    cases kind <;> simpa [ThreadIdRecord.found, LockKind.acquired] using hfound
  have hself : ThreadIdRecord.thread ⟨kind.acquired, self⟩ = {self} := by cases kind <;> rfl
  rw [htable, hself, hrec, ThreadIdRecord.thread, if_neg hr.1, hr.2]

theorem setThreadIdRecord_none (h : setThreadIdRecord object self .none = some object') :
    ∃ table, object' = { object with threadIdRecordTable := table } ∧
      table.length = object.threadIdRecordTable.length ∧ object.recorded = {self} + recordedIn table := by
  obtain ⟨table, r, rest, rfl, hlen, hfound, hrec, htable⟩ := setThreadIdRecord_spec h
  refine ⟨table, rfl, hlen, ?_⟩
  have hr : r.lockState ≠ .none ∧ r.threadId = self := by simpa [ThreadIdRecord.found] using hfound
  have hself : ThreadIdRecord.thread ⟨.none, self⟩ = 0 := rfl
  rw [htable, hself, hrec, ThreadIdRecord.thread, if_neg hr.1, hr.2, zero_add]

/-! ## The counters of an object -/

/-- The records and the counters of an object with `n` open handles, on which calls of the threads `announced` have
announced a lock that they do not have. -/
structure HaCommonObject.Counts (n : Nat) (announced : Multiset ThreadId) (object : HaCommonObject) : Prop where
  refCount : object.refCount = BitVec.ofNat 32 n
  inUse : object.inUse = BitVec.ofNat 32 object.recorded.card
  table : object.threadIdRecordTable.length = threadIdRecordNum
  recorded : object.recorded = object.holders + announced

namespace HaCommonObject.Counts

/-- The records are few, so that `in_use` is their number. -/
theorem inUse_toNat (h : object.Counts n announced) : object.inUse.toNat = object.recorded.card := by
  have hle : object.recorded.card ≤ threadIdRecordNum := by
    rw [← h.table, HaCommonObject.recorded, recordedIn, Multiset.coe_card, List.length_map]
    exact List.length_filter_le _ _
  rw [h.inUse, BitVec.toNat_ofNat, Nat.mod_eq_of_lt]
  exact lt_of_le_of_lt hle (by decide)

/-- A call announces a lock. -/
theorem announce (h : object.Counts n announced)
    (hs : setThreadIdRecord { object with inUse := object.inUse + 1 } self kind.acquiring = some object') :
    object'.Counts n ({self} + announced) := by
  obtain ⟨table, rfl, hlen, hrec⟩ := setThreadIdRecord_acquiring hs
  have hrec : recordedIn table = {self} + object.recorded := hrec
  refine ⟨h.refCount, ?_, hlen.trans h.table, ?_⟩
  · show object.inUse + 1 = BitVec.ofNat 32 (recordedIn table).card
    rw [hrec, Multiset.card_add, Multiset.card_singleton, h.inUse, Nat.add_comm, BitVec.ofNat_add]
    rfl
  · show recordedIn table = object.holders + ({self} + announced)
    rw [hrec, h.recorded, add_left_comm]

/-- The wait for the lock ends. -/
theorem take (h : object.Counts n ({self} + announced)) : (rwlockLock object kind self).Counts n announced := by
  refine ⟨h.refCount, h.inUse, h.table, ?_⟩
  show object.recorded = self ::ₘ object.holders + announced
  rw [h.recorded, ← Multiset.singleton_add, add_left_comm, add_assoc]

/-- The call records that it has the lock. -/
theorem settle (h : object.Counts n announced) (hs : setThreadIdRecord object self kind.acquired = some object') :
    object'.Counts n announced := by
  obtain ⟨table, rfl, hlen, hrec⟩ := setThreadIdRecord_acquired hs
  refine ⟨h.refCount, ?_, hlen.trans h.table, ?_⟩
  · show object.inUse = BitVec.ofNat 32 (recordedIn table).card
    rw [hrec, h.inUse]
  · show recordedIn table = object.holders + announced
    rw [hrec, h.recorded]

theorem inUse_sub_one (h : object.Counts n announced) {rest : Multiset ThreadId} (hrec : object.recorded = {self} + rest) :
    object.inUse - 1 = BitVec.ofNat 32 rest.card := by
  rw [h.inUse, hrec, Multiset.card_add, Multiset.card_singleton, Nat.add_comm, BitVec.ofNat_add]
  exact BitVec.add_sub_cancel _ _

/-- A call gives up the lock it has announced. -/
theorem leave (h : object.Counts n ({self} + announced)) (hs : setThreadIdRecord object self .none = some object') :
    { object' with inUse := object'.inUse - 1 }.Counts n announced := by
  obtain ⟨table, rfl, hlen, hrec⟩ := setThreadIdRecord_none hs
  refine ⟨h.refCount, h.inUse_sub_one hrec, hlen.trans h.table, ?_⟩
  show recordedIn table = object.holders + announced
  rw [h.recorded, add_left_comm] at hrec
  exact (add_left_cancel hrec).symm

/-- A thread whose call announces no lock gives up one that it has. -/
theorem release (h : object.Counts n announced) (hself : self ∉ announced)
    (hs : releaseLock object self = some object') : object'.Counts n announced := by
  unfold releaseLock at hs
  rw [Option.map_eq_some_iff] at hs
  obtain ⟨set, hset, rfl⟩ := hs
  obtain ⟨table, rfl, hlen, hrec⟩ := setThreadIdRecord_none hset
  have hrec : object.recorded = {self} + recordedIn table := hrec
  have hmem : self ∈ object.holders := by
    have hin : self ∈ object.holders + announced := by
      rw [← h.recorded, hrec]
      exact Multiset.mem_add.2 (.inl (Multiset.mem_singleton_self self))
    exact (Multiset.mem_add.1 hin).resolve_right hself
  have hholders : Multiset.ofList ((object.rwlock.eraseP (·.2 = self)).map (·.2)) = object.holders.erase self := by
    rw [HaCommonObject.holders, Multiset.coe_erase, List.erase_eq_eraseP', List.eraseP_map]
    rfl
  refine ⟨h.refCount, h.inUse_sub_one hrec, hlen.trans h.table, ?_⟩
  show recordedIn table = Multiset.ofList ((object.rwlock.eraseP (·.2 = self)).map (·.2)) + announced
  rw [h.recorded, Multiset.singleton_add] at hrec
  rw [hholders, ← Multiset.erase_add_left_pos _ hmem, hrec, Multiset.erase_cons_head]

end HaCommonObject.Counts

end

/-! ## The calls under way -/

/-- The call has announced a lock that it does not have. -/
def ComCallPc.announces : ComCallPc → Bool
  | .found .. | .waiting .. | .leaving | .locking _ => true
  | .filling .. | .locked _ => false

/-- The thread of an entry whose call has announced a lock of the object. -/
def ComState.announcedBy (s : ComState) (o : Addr) (e : Sigma fun _ : ThreadId => ComCall) : Option ThreadId :=
  if e.2.pc.announces && s.objectOf e.2.handle = some o then some e.1 else none

/-- The threads whose calls have announced a lock of the object that they do not have. -/
def ComState.announced (s : ComState) (o : Addr) : Multiset ThreadId := s.calls.entries.filterMap (s.announcedBy o)

/-- What one call adds to it. -/
def pending (self : ThreadId) (call : Option ComCall) : Multiset ThreadId :=
  if call.any (·.pc.announces) then {self} else 0

/-- What the calls of the other threads add to it. -/
def ComState.others (s : ComState) (self : ThreadId) (o : Addr) : Multiset ThreadId :=
  (s.calls.erase self).entries.filterMap (s.announcedBy o)

section

variable {s : ComState} {self : ThreadId} {o o' : Addr}

theorem ComState.not_mem_others : self ∉ s.others self o := by
  intro hm
  obtain ⟨e, he, hby⟩ := (Multiset.mem_filterMap _ _).1 hm
  unfold announcedBy at hby
  split at hby
  · cases hby
    exact FiniteMap.fst_ne_of_mem_erase he rfl
  · cases hby

/-- The announced locks of an object, when the call of a thread, if any, is on a handle of `o`. -/
theorem ComState.announced_eq (hon : ∀ c ∈ s.calls.lookup self, s.objectOf c.handle = some o) :
    s.announced o' = (if o' = o then pending self (s.calls.lookup self) else 0) + s.others self o' := by
  cases hc : s.calls.lookup self with
  | none =>
    rw [others, FiniteMap.erase_of_lookup_eq_none hc, announced, pending]
    simp
  | some c =>
    have hobj := hon c hc
    rw [announced, FiniteMap.entries_of_lookup hc, others]
    have hby : s.announcedBy o' ⟨self, c⟩ = if c.pc.announces && o = o' then some self else none := by
      rw [announcedBy, hobj]
      simp
    by_cases ho : o' = o
    · subst ho
      cases hp : c.pc.announces with
      | false =>
        rw [Multiset.filterMap_cons_none _ _ (by simp [hby, hp])]
        simp [pending, hp]
      | true =>
        rw [Multiset.filterMap_cons_some _ _ _ (b := self) (by simp [hby, hp])]
        simp [pending, hp]
    · rw [Multiset.filterMap_cons_none _ _ (by simp [hby, Ne.symm ho]), if_neg ho, zero_add]

end

/-! ## The moves -/

/-- A step of one thread that changes one object, neither its id nor the handles of it, and the call of the thread. -/
structure Touch (s s' : ComState) (t : ThreadId) (o : Addr) (object object' : HaCommonObject) : Prop where
  live : s.object o = some object
  object_eq : s'.object = Function.update s.object o (some object')
  hash : s'.commonObjectHash = s.commonObjectHash
  handle : s'.handle = s.handle
  calls : s'.calls.erase t = s.calls.erase t
  objectId : object'.objectId = object.objectId
  before : ∀ c ∈ s.calls.lookup t, s.objectOf c.handle = some o
  after : ∀ c ∈ s'.calls.lookup t, s.objectOf c.handle = some o
  counts : ∀ n others, t ∉ others → object.Counts n (pending t (s.calls.lookup t) + others) →
    object'.Counts n (pending t (s'.calls.lookup t) + others)

/-- The handles stand for the objects they did. -/
theorem Touch.objectOf {s s' : ComState} {t : ThreadId} {o : Addr} {object object' : HaCommonObject}
    (h : Touch s s' t o object object') : s'.objectOf = s.objectOf := by
  funext handle
  rw [ComState.objectOf, ComState.objectOf, h.handle]

/-- The object id of `com_create` and `com_open`. -/
def ComAction.opens : ComAction → Option CString
  | .create _ objectId .. | .openObject _ objectId .. => some objectId
  | _ => none

/-- The handle that is passed to a call. -/
def ComAction.handle : ComAction → Option Addr
  | .close _ handle | .registerCallback _ handle _ | .deregisterCallback _ handle _ | .writerLock _ handle
  | .readerLock _ handle | .writerUnlock _ handle | .readerUnlock _ handle | .write _ handle _ => some handle
  | .create .. | .openObject .. | .advance _ => none

/-- What an action does to the list of callbacks of the object it touches. -/
def CallbackMove (a : ComAction) (object object' : HaCommonObject) : Prop :=
  match a with
  | .registerCallback _ handle func => object'.callbackList = ⟨handle, func⟩ :: object.callbackList
  | .deregisterCallback _ _ func =>
    (∃ c ∈ object.callbackList, c.func = func) ∧ object'.callbackList = object.callbackList.eraseP (·.func = func)
  | _ => object'.callbackList = object.callbackList

/-- The moves of the object manager. -/
inductive ComMove (s : ComState) : ComAction → ComState → Prop
  | touched {a : ComAction} {s' : ComState} {self : ThreadId} {o : Addr} {object object' : HaCommonObject} :
    Touch s s' self o object object' → (∀ handle ∈ a.handle, s.objectOf handle = some o) →
    CallbackMove a object object' →
    (∀ i ∈ s'.invoked, ∃ c ∈ object.callbackList, i.objectHandle = c.objectHandle) → ComMove s a s'
  | found {a : ComAction} {self : ThreadId} {objectId : CString} {size : MtcU32} {buffer : Option (List Byte)}
    {o handle : Addr} {object object' : HaCommonObject} :
    a.opens = some objectId → s.calls.lookup self = none → s.handle.lookup handle = none →
    findCommonObject s objectId = some o → s.object o = some object →
    setThreadIdRecord { object with refCount := object.refCount + 1, inUse := object.inUse + 1 } self .writerAcquiring =
      some object' →
    ComMove s a { s.setObject o object' with
      handle := s.handle.insert handle ⟨o, haCommonObjectMagic⟩
      calls := s.calls.insert self ⟨handle, .found size buffer⟩
      invoked := [] }
  | created {a : ComAction} {objectId : CString} {size : MtcU32} {buffer : Option (List Byte)} {o handle : Addr}
    {object : HaCommonObject} :
    a.opens = some objectId → s.handle.lookup handle = none → findCommonObject s objectId = none → s.object o = none →
    object = { newObject objectId size buffer with refCount := 1 } →
    ComMove s a { insertCommonObject (s.setObject o object) objectId o with
      handle := s.handle.insert handle ⟨o, haCommonObjectMagic⟩
      invoked := [] }
  | closed {self : ThreadId} {o handle : Addr} {object : HaCommonObject} :
    s.objectOf handle = some o → s.object o = some object → objectSafeToDelete object.unref = false →
    ComMove s (.close self handle) { s.setObject o object.unref with handle := s.handle.erase handle, invoked := [] }
  | freed {self : ThreadId} {o handle : Addr} {object : HaCommonObject} :
    s.objectOf handle = some o → s.object o = some object → objectSafeToDelete object.unref = true →
    ComMove s (.close self handle) { s.freeObject o with
      commonObjectHash := HashTable.delete calcHash s.key s.commonObjectHash object.objectId
      handle := s.handle.erase handle
      invoked := [] }

section

variable {s s' : ComState} {self : ThreadId} {o handle func : Addr} {object object' : HaCommonObject}
  {lockState : LockState} {inv : List Invocation}

/-- The ids stay when an object is written. -/
theorem ComState.key_setObject (hlive : s.object o = some object) (hid : object'.objectId = object.objectId) :
    (s.setObject o object').key = s.key := by
  funext b
  show (Function.update s.object o (some object') b).map (·.objectId) = (s.object b).map (·.objectId)
  by_cases hb : b = o
  · rw [hb, Function.update_self, hlive, Option.map_some, Option.map_some, hid]
  · rw [Function.update_of_ne hb]

theorem ComState.deref_eq_some (h : s.deref handle = some (o, object)) :
    s.objectOf handle = some o ∧ s.object o = some object := by
  unfold ComState.deref at h
  simp only [Option.pure_def, Option.bind_eq_bind, Option.bind_eq_some_iff, Option.some.injEq, Prod.mk.injEq] at h
  obtain ⟨o', ho, object', hobj, rfl, rfl⟩ := h
  exact ⟨ho, hobj⟩

theorem ComState.enter_eq_some (h : s.enter handle = some (o, object)) :
    s.objectOf handle = some o ∧ s.object o = some object := by
  unfold ComState.enter at h
  split at h
  · exact ComState.deref_eq_some h
  · cases h

theorem setThreadIdRecord_same (h : setThreadIdRecord object self lockState = some object') :
    object'.objectId = object.objectId ∧ object'.callbackList = object.callbackList := by
  obtain ⟨table, -, -, rfl, -⟩ := setThreadIdRecord_spec h
  exact ⟨rfl, rfl⟩

theorem releaseLock_same (h : releaseLock object self = some object') :
    object'.objectId = object.objectId ∧ object'.callbackList = object.callbackList := by
  unfold releaseLock at h
  rw [Option.map_eq_some_iff] at h
  obtain ⟨set, hset, rfl⟩ := h
  have hsame := setThreadIdRecord_same hset
  exact hsame

theorem pending_none : pending self none = 0 := rfl

theorem pending_announced {c : ComCall} (h : c.pc.announces = true) : pending self (some c) = {self} := by
  rw [pending, Option.any_some, if_pos h]

theorem pending_settled {c : ComCall} (h : c.pc.announces = false) : pending self (some c) = 0 := by
  rw [pending, Option.any_some, h, if_neg Bool.false_ne_true]

/-- A thread in no call changes an object. -/
theorem Touch.of_idle (hlive : s.object o = some object) (hidle : s.calls.lookup self = none)
    (hid : object'.objectId = object.objectId)
    (hcounts : ∀ n announced, self ∉ announced → object.Counts n announced → object'.Counts n announced) :
    Touch s { s.setObject o object' with invoked := inv } self o object object' := by
  have hno : ∀ c ∈ s.calls.lookup self, s.objectOf c.handle = some o := by
    rw [hidle]
    exact nofun
  refine ⟨hlive, rfl, rfl, rfl, rfl, hid, hno, hno, fun n others hself => ?_⟩
  show object.Counts n (pending self (s.calls.lookup self) + others) →
    object'.Counts n (pending self (s.calls.lookup self) + others)
  rw [hidle, pending_none, zero_add]
  exact hcounts n others hself

/-- A thread enters a call that leaves the mutex. -/
theorem Touch.of_start {c : ComCall} (hlive : s.object o = some object) (hidle : s.calls.lookup self = none)
    (hid : object'.objectId = object.objectId) (hobj : s.objectOf c.handle = some o)
    (hcounts : ∀ n announced, object.Counts n announced → object'.Counts n (pending self (some c) + announced)) :
    Touch s { s.setObject o object' with calls := s.calls.insert self c, invoked := inv } self o object object' := by
  refine ⟨hlive, rfl, rfl, rfl, FiniteMap.erase_insert .., hid, ?_, ?_, fun n others _ => ?_⟩
  · rw [hidle]
    exact nofun
  · rw [Finmap.lookup_insert]
    rintro c' ⟨⟩
    exact hobj
  · rw [hidle, pending_none, zero_add, Finmap.lookup_insert]
    exact hcounts n others

/-- A call under way goes on. -/
theorem Touch.of_go {c c' : ComCall} (hlive : s.object o = some object) (hc : s.calls.lookup self = some c)
    (hid : object'.objectId = object.objectId) (hobj : s.objectOf c.handle = some o) (hsame : c'.handle = c.handle)
    (hcounts : ∀ n announced, object.Counts n (pending self (some c) + announced) →
      object'.Counts n (pending self (some c') + announced)) :
    Touch s { s.setObject o object' with calls := s.calls.insert self c', invoked := inv } self o object object' := by
  refine ⟨hlive, rfl, rfl, rfl, FiniteMap.erase_insert .., hid, ?_, ?_, fun n others _ => ?_⟩
  · rw [hc]
    rintro c ⟨⟩
    exact hobj
  · rw [Finmap.lookup_insert]
    rintro c ⟨⟩
    exact hsame ▸ hobj
  · rw [hc, Finmap.lookup_insert]
    exact hcounts n others

/-- A call under way returns. -/
theorem Touch.of_return {c : ComCall} (hlive : s.object o = some object) (hc : s.calls.lookup self = some c)
    (hid : object'.objectId = object.objectId) (hobj : s.objectOf c.handle = some o)
    (hcounts : ∀ n announced, self ∉ announced → object.Counts n (pending self (some c) + announced) →
      object'.Counts n announced) :
    Touch s { s.setObject o object' with calls := s.calls.erase self, invoked := inv } self o object object' := by
  refine ⟨hlive, rfl, rfl, rfl, FiniteMap.erase_erase .., hid, ?_, ?_, fun n others hself => ?_⟩
  · rw [hc]
    rintro c ⟨⟩
    exact hobj
  · rw [Finmap.lookup_erase]
    exact nofun
  · rw [hc, Finmap.lookup_erase, pending_none, zero_add]
    exact hcounts n others hself

/-! ## What the calls do -/

theorem comCreate_move {a : ComAction} {objectId : CString} {size : MtcU32} {buffer : Option (List Byte)} {new : Addr}
    (ha : a.opens = some objectId) (hidle : s.calls.lookup self = none)
    (h : comCreate { s with invoked := [] } self objectId size buffer new handle = some s') : ComMove s a s' := by
  unfold comCreate at h
  split at h
  · cases h
  · rename_i hfresh
    have hfresh : handle ≠ 0 ∧ s.handle.lookup handle = none := by simpa using hfresh
    split at h
    · rename_i o hfind
      simp only [Option.pure_def, Option.bind_eq_bind, Option.bind_eq_some_iff, Option.some.injEq] at h
      obtain ⟨object, hlive, object', hset, rfl⟩ := h
      exact .found ha hidle hfresh.2 hfind hlive hset
    · rename_i hfind
      split at h
      · cases h
      · rename_i hnew
        have hnew : new ≠ 0 ∧ s.object new = none := by simpa using hnew
        cases h
        have hone : { newObject objectId size buffer with refCount := (newObject objectId size buffer).refCount + 1 } =
            { newObject objectId size buffer with refCount := 1 } := by
          cases buffer <;> rfl
        exact .created ha hfresh.2 hfind hnew.2 hone

theorem comClose_move (h : comClose { s with invoked := [] } handle = some s') :
    ComMove s (.close self handle) s' := by
  unfold comClose at h
  simp only [Option.bind_eq_bind, Option.bind_eq_some_iff, Option.map_eq_some_iff] at h
  obtain ⟨⟨o, object⟩, henter, s₁, hs₁, rfl⟩ := h
  obtain ⟨hobj, hlive⟩ := ComState.enter_eq_some henter
  dsimp only at hs₁
  by_cases hsafe : objectSafeToDelete object.unref = true
  · rw [if_pos hsafe, Option.map_eq_some_iff] at hs₁
    obtain ⟨s₂, hdelete, rfl⟩ := hs₁
    unfold deleteCommonObject at hdelete
    rw [Option.ite_none_right_eq_some, Option.some.injEq] at hdelete
    obtain ⟨-, rfl⟩ := hdelete
    show ComMove s _ { s with
      commonObjectHash :=
        HashTable.delete calcHash (s.setObject o object.unref).key s.commonObjectHash object.objectId
      object := Function.update (Function.update s.object o (some object.unref)) o none
      handle := s.handle.erase handle
      invoked := [] }
    have hkey : (s.setObject o object.unref).key = s.key := ComState.key_setObject hlive rfl
    rw [hkey, Function.update_idem]
    exact .freed hobj hlive hsafe
  · rw [if_neg hsafe] at hs₁
    cases hs₁
    exact .closed hobj hlive (Bool.eq_false_iff.2 hsafe)

theorem comRegisterCallback_move (hidle : s.calls.lookup self = none)
    (h : comRegisterCallback { s with invoked := [] } handle func = some s') :
    ComMove s (.registerCallback self handle func) s' := by
  unfold comRegisterCallback at h
  simp only [Option.pure_def, Option.bind_eq_bind, Option.bind_eq_some_iff, Option.ite_none_left_eq_some,
    Option.some.injEq] at h
  obtain ⟨⟨o, object⟩, henter, -, rfl⟩ := h
  obtain ⟨hobj, hlive⟩ := ComState.enter_eq_some henter
  refine .touched (.of_idle hlive hidle rfl fun n A _ h => ?_) ?_ rfl nofun
  · exact ⟨h.refCount, h.inUse, h.table, h.recorded⟩
  · rintro _ ⟨⟩
    exact hobj

theorem comDeregisterCallback_move (hidle : s.calls.lookup self = none)
    (h : comDeregisterCallback { s with invoked := [] } handle func = some s') :
    ComMove s (.deregisterCallback self handle func) s' := by
  unfold comDeregisterCallback deleteCallbackListItem at h
  simp only [Option.pure_def, Option.bind_eq_bind, Option.bind_eq_some_iff, Option.ite_none_left_eq_some,
    Option.ite_none_right_eq_some, Option.some.injEq] at h
  obtain ⟨⟨o, object⟩, henter, -, object', ⟨hany, rfl⟩, rfl⟩ := h
  obtain ⟨hobj, hlive⟩ := ComState.enter_eq_some henter
  refine .touched (.of_idle hlive hidle rfl fun n A _ h => ?_) ?_ ⟨?_, rfl⟩ nofun
  · exact ⟨h.refCount, h.inUse, h.table, h.recorded⟩
  · rintro _ ⟨⟩
    exact hobj
  · simpa using hany

theorem comLock_move {a : ComAction} {kind : LockKind} (ha : a.handle = some handle)
    (hc : ∀ object object', CallbackMove a object object' ↔ object'.callbackList = object.callbackList)
    (hidle : s.calls.lookup self = none) (h : comLock { s with invoked := [] } self kind handle = some s') :
    ComMove s a s' := by
  unfold comLock at h
  simp only [Option.pure_def, Option.bind_eq_bind, Option.bind_eq_some_iff, Option.some.injEq] at h
  obtain ⟨⟨o, object⟩, henter, object', hset, rfl⟩ := h
  obtain ⟨hobj, hlive⟩ := ComState.enter_eq_some henter
  have hsame := setThreadIdRecord_same hset
  refine .touched (.of_start hlive hidle hsame.1 hobj fun n A h => ?_) ?_ ((hc _ _).2 hsame.2) nofun
  · exact h.announce hset
  · rw [ha]
    rintro _ ⟨⟩
    exact hobj

theorem comWriterUnlock_move (hidle : s.calls.lookup self = none)
    (h : comWriterUnlock { s with invoked := [] } self handle = some s') : ComMove s (.writerUnlock self handle) s' := by
  unfold comWriterUnlock at h
  simp only [Option.pure_def, Option.bind_eq_bind, Option.bind_eq_some_iff, Option.some.injEq] at h
  obtain ⟨⟨o, object⟩, henter, object', hrelease, rfl⟩ := h
  obtain ⟨hobj, hlive⟩ := ComState.enter_eq_some henter
  have hsame := releaseLock_same hrelease
  refine .touched (.of_idle hlive hidle hsame.1 fun n A hself h => ?_) ?_ hsame.2 fun i hi => ?_
  · have h : { object with checksum := calcChecksumObjectBuffer object }.Counts n A :=
      ⟨h.refCount, h.inUse, h.table, h.recorded⟩
    exact h.release hself hrelease
  · rintro _ ⟨⟩
    exact hobj
  · obtain ⟨c, hc, rfl⟩ := List.mem_map.1 hi
    exact ⟨c, hc, rfl⟩

theorem comReaderUnlock_move (hidle : s.calls.lookup self = none)
    (h : comReaderUnlock { s with invoked := [] } self handle = some s') : ComMove s (.readerUnlock self handle) s' := by
  unfold comReaderUnlock at h
  simp only [Option.pure_def, Option.bind_eq_bind, Option.bind_eq_some_iff, Option.ite_none_left_eq_some,
    Option.some.injEq] at h
  obtain ⟨⟨o, object⟩, henter, -, object', hrelease, rfl⟩ := h
  obtain ⟨hobj, hlive⟩ := ComState.enter_eq_some henter
  have hsame := releaseLock_same hrelease
  refine .touched (.of_idle hlive hidle hsame.1 fun n A hself h => h.release hself hrelease) ?_ hsame.2 nofun
  rintro _ ⟨⟩
  exact hobj

theorem writeBuffer_move {buffer : List Byte} (hidle : s.calls.lookup self = none)
    (h : writeBuffer { s with invoked := [] } self handle buffer = some s') :
    ComMove s (.write self handle buffer) s' := by
  unfold writeBuffer at h
  simp only [Option.pure_def, Option.bind_eq_bind, Option.bind_eq_some_iff, Option.ite_none_right_eq_some,
    Option.some.injEq] at h
  obtain ⟨⟨o, object⟩, hderef, old, -, -, rfl⟩ := h
  obtain ⟨hobj, hlive⟩ := ComState.deref_eq_some hderef
  refine .touched (.of_idle hlive hidle rfl fun n A _ h => ?_) ?_ rfl nofun
  · exact ⟨h.refCount, h.inUse, h.table, h.recorded⟩
  · rintro _ ⟨⟩
    exact hobj

/-- The wait of a call for the lock ends. -/
theorem comTake_move {kind : LockKind} {pc pc' : ComCallPc} (hlive : s.object o = some object)
    (hc : s.calls.lookup self = some ⟨handle, pc⟩) (hobj : s.objectOf handle = some o) (hpc : pc.announces = true)
    (hpc' : pc'.announces = false) :
    ComMove s (.advance self) { s.setObject o (rwlockLock object kind self) with
      calls := s.calls.insert self ⟨handle, pc'⟩
      invoked := [] } := by
  refine .touched (.of_go hlive hc rfl hobj rfl fun n A h => ?_) nofun rfl nofun
  rw [pending_announced hpc] at h
  rw [pending_settled hpc', zero_add]
  exact h.take

theorem comAdvance_move (h : comAdvance { s with invoked := [] } self = some s') : ComMove s (.advance self) s' := by
  unfold comAdvance at h
  simp only [Option.bind_eq_bind, Option.bind_eq_some_iff] at h
  obtain ⟨⟨handle, pc⟩, hc, ⟨o, object⟩, hderef, h⟩ := h
  obtain ⟨hobj, hlive⟩ := ComState.deref_eq_some hderef
  cases pc with
  | found size buffer =>
    have hgo : ∀ pc : ComCallPc, pc.announces = true →
        ComMove s (.advance self) { s with calls := s.calls.insert self ⟨handle, pc⟩, invoked := [] } := by
      intro pc hpc
      have hset : s.setObject o object = s := by
        have hlive : some object = s.object o := hlive.symm
        rw [ComState.setObject, hlive, Function.update_eq_self]
      have htouch : Touch s { s.setObject o object with calls := s.calls.insert self ⟨handle, pc⟩, invoked := [] }
          self o object object := by
        refine .of_go hlive hc rfl hobj rfl fun n A h => ?_
        rw [pending_announced hpc]
        rwa [pending_announced rfl] at h
      rw [hset] at htouch
      exact .touched htouch nofun rfl nofun
    dsimp only at h
    split at h
    · cases h
      exact hgo _ rfl
    · cases h
      exact hgo _ rfl
  | waiting size buffer =>
    simp only [Option.ite_none_right_eq_some, Option.some.injEq] at h
    obtain ⟨-, rfl⟩ := h
    exact comTake_move hlive hc hobj rfl rfl
  | filling size buffer =>
    simp only [Option.bind_eq_some_iff, Option.some.injEq] at h
    obtain ⟨recorded, hset, object', hrelease, rfl⟩ := h
    have hset_same := setThreadIdRecord_same hset
    have hrelease_same := releaseLock_same hrelease
    refine .touched (.of_return hlive hc (hrelease_same.1.trans hset_same.1) hobj fun n A hself h => ?_) nofun
      (hrelease_same.2.trans hset_same.2) fun i hi => ?_
    · rw [pending_settled rfl, zero_add] at h
      have hset : setThreadIdRecord object self LockKind.writer.acquired = some recorded := hset
      have h := h.settle hset
      generalize hfilled : newObjectBuffer recorded size buffer = filled at hrelease
      have hfilled : { filled with checksum := calcChecksumObjectBuffer filled }.Counts n A := by
        rw [← hfilled]
        exact ⟨h.refCount, h.inUse, h.table, h.recorded⟩
      exact hfilled.release hself hrelease
    · obtain ⟨c, hcallback, rfl⟩ := List.mem_map.1 hi
      have hcallback : c ∈ recorded.callbackList := hcallback
      rw [hset_same.2] at hcallback
      exact ⟨c, hcallback, rfl⟩
  | leaving =>
    simp only [Option.bind_eq_some_iff, Option.some.injEq] at h
    obtain ⟨object', hset, rfl⟩ := h
    have hsame := setThreadIdRecord_same hset
    exact .touched (.of_return hlive hc hsame.1 hobj fun n A _ h => h.leave hset) nofun hsame.2 nofun
  | locking kind =>
    simp only [Option.ite_none_right_eq_some, Option.some.injEq] at h
    obtain ⟨-, rfl⟩ := h
    exact comTake_move hlive hc hobj rfl rfl
  | locked kind =>
    simp only [Option.bind_eq_some_iff, Option.some.injEq] at h
    obtain ⟨object', hset, rfl⟩ := h
    have hsame := setThreadIdRecord_same hset
    refine .touched (.of_return hlive hc hsame.1 hobj fun n A _ h => ?_) nofun hsame.2 nofun
    rw [pending_settled rfl, zero_add] at h
    exact h.settle hset

/-- Every step is a move. -/
theorem ComMove.of_next {a : ComAction} (h : comNext s a = some s') : ComMove s a s' := by
  unfold comNext at h
  split at h
  · cases h
  · rename_i hidle
    have hidle : ∀ self, a.idle = some self → s.calls.lookup self = none := by
      intro self ha
      rw [ha] at hidle
      simpa using hidle
    cases a with
    | create self objectId size buffer new handle => exact comCreate_move rfl (hidle self rfl) h
    | openObject self objectId new handle => exact comCreate_move rfl (hidle self rfl) h
    | close self handle => exact comClose_move h
    | registerCallback self handle func => exact comRegisterCallback_move (hidle self rfl) h
    | deregisterCallback self handle func => exact comDeregisterCallback_move (hidle self rfl) h
    | writerLock self handle => exact comLock_move rfl (fun _ _ => Iff.rfl) (hidle self rfl) h
    | readerLock self handle => exact comLock_move rfl (fun _ _ => Iff.rfl) (hidle self rfl) h
    | writerUnlock self handle => exact comWriterUnlock_move (hidle self rfl) h
    | readerUnlock self handle => exact comReaderUnlock_move (hidle self rfl) h
    | write self handle buffer => exact writeBuffer_move (hidle self rfl) h
    | advance self => exact comAdvance_move h

end

end Xha
