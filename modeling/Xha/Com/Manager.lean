/-
The common object manager (com.c): named objects in a chained hash table, counted by their open handles, each with a
reader-writer lock, a record of the threads at the lock, and a list of callbacks. A function returns no state where
the process ends: at a failed assertion (the build of the makefile keeps them), when an allocation or a pthread
function fails, at a pointer to memory that is free; and while a wait goes on.
-/
import Xha.Com
import Xha.Lib.CString
import Xha.Lib.FiniteMap
import Xha.Lib.HashTable
import Xha.Lib.Transition

namespace Xha

open Transition

/-! ## Objects -/

/-- A pointer; NULL is 0. -/
abbrev Addr := Nat

/-- `pthread_t`. -/
abbrev ThreadId := Nat

/-- `LOCK_STATE_*`. -/
inductive LockState
  | none | readerAcquiring | readerAcquired | writerAcquiring | writerAcquired
  deriving DecidableEq

/-- `THREAD_ID_RECORD`. -/
structure ThreadIdRecord where
  lockState : LockState
  threadId : ThreadId
  deriving DecidableEq

/-- The two sides of a `pthread_rwlock_t`. -/
inductive LockKind
  | reader | writer
  deriving DecidableEq

def LockKind.acquiring : LockKind → LockState
  | .reader => .readerAcquiring
  | .writer => .writerAcquiring

def LockKind.acquired : LockKind → LockState
  | .reader => .readerAcquired
  | .writer => .writerAcquired

/-- `HA_COMMON_OBJECT_CALLBACK_LIST_ITEM`. -/
structure CallbackListItem where
  objectHandle : Addr
  func : Addr
  deriving DecidableEq

/-- `HA_COMMON_OBJECT`; of its lock, the threads that have it. -/
structure HaCommonObject where
  objectId : CString
  size : MtcU32
  buffer : Option (List Byte)
  callbackList : List CallbackListItem
  rwlock : List (LockKind × ThreadId)
  inUse : MtcU32
  refCount : MtcU32
  checksum : MtcU32
  threadIdRecordTable : List ThreadIdRecord
  deriving DecidableEq

/-- `HA_COMMON_OBJECT_HANDLE_INTERNAL`. -/
structure HandleInternal where
  object : Addr
  magic : String
  deriving DecidableEq

def hashTableSize : Nat := 1024
def hashTablePlaceConstant : MtcU32 := 137
def hashTablePrimeNumber : Nat := 1021
def threadIdRecordNum : Nat := 16
def haCommonObjectMagic : String := "HACMNOB"

/-- The bytes of the buffer xor-ed together. -/
def calcChecksumObjectBuffer (object : HaCommonObject) : MtcU32 :=
  match object.buffer with
  | none => 0
  | some buf => buf.foldl (fun checksum b => checksum ^^^ b.zeroExtend 32) 0

/-- `char` is signed. -/
def calcHash (objectId : CString) : Nat :=
  (objectId.chars.foldl
    (fun h c => h * hashTablePlaceConstant + (BitVec.ofNat 8 c.toNat).signExtend 32) (0 : MtcU32)).toNat %
      hashTablePrimeNumber

def newObjectBuffer (object : HaCommonObject) (size : MtcU32) (buffer : List Byte) : HaCommonObject :=
  { object with size, buffer := some (buffer.take size.toNat) }

def validObjectHandle (handle : Addr) (h : HandleInternal) : Bool := handle ≠ 0 && h.magic = haCommonObjectMagic

def objectSafeToDelete (object : HaCommonObject) : Bool :=
  object.refCount = 0 && object.inUse = 0 && object.callbackList.isEmpty

def newObject (objectId : CString) (size : MtcU32) (buffer : Option (List Byte)) : HaCommonObject :=
  let new : HaCommonObject :=
    { objectId, size := 0, buffer := none, callbackList := [], rwlock := [], inUse := 0, refCount := 0, checksum := 0
      threadIdRecordTable := List.replicate threadIdRecordNum ⟨.none, 0⟩ }
  let new := match buffer with
    | none => new
    | some buffer => newObjectBuffer new size buffer
  { new with checksum := calcChecksumObjectBuffer new }

def insertCallbackListItem (object : HaCommonObject) (item : CallbackListItem) : HaCommonObject :=
  { object with callbackList := item :: object.callbackList }

/-- The first item with this function goes, whichever handle it was registered with. -/
def deleteCallbackListItem (object : HaCommonObject) (func : Addr) : Option HaCommonObject :=
  if object.callbackList.any (·.func = func) then
    some { object with callbackList := object.callbackList.eraseP (·.func = func) }
  else none

/-- The records that a thread setting a lock state looks for: a free one, or one of its own. -/
def ThreadIdRecord.found (self : ThreadId) (lockState : LockState) (r : ThreadIdRecord) : Bool :=
  match lockState with
  | .readerAcquiring | .writerAcquiring => r.lockState = .none
  | .none | .readerAcquired | .writerAcquired => r.lockState ≠ .none && r.threadId = self

def ThreadIdRecord.set (self : ThreadId) (lockState : LockState) (r : ThreadIdRecord) : Option ThreadIdRecord :=
  if r.found self lockState then some ⟨lockState, self⟩ else none

/-- Sets the first such record; without one, the assertion fails. -/
def setThreadIdRecord (object : HaCommonObject) (self : ThreadId) (lockState : LockState) : Option HaCommonObject :=
  if object.threadIdRecordTable.any (·.found self lockState) then
    some { object with threadIdRecordTable := object.threadIdRecordTable.replaceF (·.set self lockState) }
  else none

/-- Whether `pthread_rwlock_rdlock` or `pthread_rwlock_wrlock` returns. -/
def rwlockFree (rwlock : List (LockKind × ThreadId)) : LockKind → Bool
  | .reader => rwlock.all (·.1 = .reader)
  | .writer => rwlock.isEmpty

def rwlockLock (object : HaCommonObject) (kind : LockKind) (self : ThreadId) : HaCommonObject :=
  { object with rwlock := (kind, self) :: object.rwlock }

/-- `pthread_rwlock_unlock` by a thread gives up one of its locks. -/
def rwlockUnlock (object : HaCommonObject) (self : ThreadId) : HaCommonObject :=
  { object with rwlock := object.rwlock.eraseP (·.2 = self) }

/-- The end of `com_writer_unlock` and `com_reader_unlock`. -/
def releaseLock (object : HaCommonObject) (self : ThreadId) : Option HaCommonObject :=
  (setThreadIdRecord { object with inUse := object.inUse - 1 } self .none).map fun object => rwlockUnlock object self

/-! ## The state -/

/-- A callback runs, with what it is passed. -/
structure Invocation where
  func : Addr
  objectHandle : Addr
  buffer : Option (List Byte)
  deriving DecidableEq

/-- Where a call stands that has left the mutex: `com_create` on an object that exists, before it looks at the data,
in its wait for the lock, with the lock, and in its else branch; `com_reader_lock` and `com_writer_lock`, in the wait
and with the lock. -/
inductive ComCallPc
  | found (size : MtcU32) (buffer : Option (List Byte))
  | waiting (size : MtcU32) (buffer : List Byte)
  | filling (size : MtcU32) (buffer : List Byte)
  | leaving
  | locking (kind : LockKind)
  | locked (kind : LockKind)
  deriving DecidableEq

/-- A call under way. -/
structure ComCall where
  handle : Addr
  pc : ComCallPc
  deriving DecidableEq

/-- The memory of the object manager, the calls under way, and the callbacks the last step ran. -/
structure ComState where
  commonObjectHash : Nat → List Addr
  object : Addr → Option HaCommonObject
  handle : Finmap fun _ : Addr => HandleInternal
  calls : Finmap fun _ : ThreadId => ComCall
  invoked : List Invocation

/-- `com_initialize(0)`. -/
def ComState.initial : ComState := ⟨fun _ => [], fun _ => none, ∅, ∅, []⟩

/-- The id of the object at an address. -/
def ComState.key (s : ComState) (a : Addr) : Option CString := (s.object a).map (·.objectId)

def ComState.setObject (s : ComState) (a : Addr) (object : HaCommonObject) : ComState :=
  { s with object := Function.update s.object a (some object) }

def ComState.freeObject (s : ComState) (a : Addr) : ComState := { s with object := Function.update s.object a none }

def findCommonObject (s : ComState) (objectId : CString) : Option Addr :=
  HashTable.find calcHash s.key s.commonObjectHash objectId

def insertCommonObject (s : ComState) (objectId : CString) (new : Addr) : ComState :=
  { s with commonObjectHash := HashTable.insert calcHash s.commonObjectHash objectId new }

def deleteCommonObject (s : ComState) (objectId : CString) : Option ComState :=
  if (findCommonObject s objectId).isSome then
    some { s with commonObjectHash := HashTable.delete calcHash s.key s.commonObjectHash objectId }
  else none

/-- `handle->object`, if the handle is open. -/
def ComState.objectOf (s : ComState) (handle : Addr) : Option Addr := (s.handle.lookup handle).map (·.object)

/-- The object behind a handle. -/
def ComState.deref (s : ComState) (handle : Addr) : Option (Addr × HaCommonObject) := do
  let a ← s.objectOf handle
  let object ← s.object a
  return (a, object)

/-- The object behind the handle of a call, once the handle has been examined. -/
def ComState.enter (s : ComState) (handle : Addr) : Option (Addr × HaCommonObject) :=
  if (s.handle.lookup handle).any (validObjectHandle handle) then s.deref handle else none

/-- The object has one handle less. -/
def HaCommonObject.unref (object : HaCommonObject) : HaCommonObject :=
  { object with refCount := if object.refCount ≠ 0 then object.refCount - 1 else object.refCount }

/-- Runs the callbacks of an object. -/
def runCallbacks (object : HaCommonObject) : List Invocation :=
  object.callbackList.map fun c => ⟨c.func, c.objectHandle, object.buffer⟩

/-! ## The calls -/

section

variable (s : ComState) (self : ThreadId)

/-- `malloc` returns `new` for an object and `handle` for a handle. -/
def comCreate (objectId : CString) (size : MtcU32) (buffer : Option (List Byte)) (new handle : Addr) : Option ComState :=
  if handle = 0 || (s.handle.lookup handle).isSome then none
  else match findCommonObject s objectId with
    | some a => do
      let object ← s.object a
      let object := { object with refCount := object.refCount + 1, inUse := object.inUse + 1 }
      let object ← setThreadIdRecord object self .writerAcquiring
      return { s.setObject a object with
        handle := s.handle.insert handle ⟨a, haCommonObjectMagic⟩
        calls := s.calls.insert self ⟨handle, .found size buffer⟩ }
    | none =>
      if new = 0 || (s.object new).isSome then none
      else
        let object := newObject objectId size buffer
        let object := { object with refCount := object.refCount + 1 }
        some { insertCommonObject (s.setObject new object) objectId new with
          handle := s.handle.insert handle ⟨new, haCommonObjectMagic⟩ }

def comOpen (objectId : CString) (new handle : Addr) : Option ComState := comCreate s self objectId 0 none new handle

def comClose (handle : Addr) : Option ComState := do
  let (a, object) ← s.enter handle
  let object := object.unref
  let s := s.setObject a object
  (if objectSafeToDelete object then (deleteCommonObject s object.objectId).map (·.freeObject a) else some s).map fun s =>
    { s with handle := s.handle.erase handle }

def comRegisterCallback (handle func : Addr) : Option ComState := do
  let (a, object) ← s.enter handle
  if func = 0 then none
  else return s.setObject a (insertCallbackListItem object ⟨handle, func⟩)

def comDeregisterCallback (handle func : Addr) : Option ComState := do
  let (a, object) ← s.enter handle
  if func = 0 then none
  else
    let object ← deleteCallbackListItem object func
    return s.setObject a object

/-- `com_writer_lock` and `com_reader_lock` up to their wait. -/
def comLock (kind : LockKind) (handle : Addr) : Option ComState := do
  let (a, object) ← s.enter handle
  let object ← setThreadIdRecord { object with inUse := object.inUse + 1 } self kind.acquiring
  return { s.setObject a object with calls := s.calls.insert self ⟨handle, .locking kind⟩ }

def comWriterLock (handle : Addr) : Option ComState := comLock s self .writer handle

def comReaderLock (handle : Addr) : Option ComState := comLock s self .reader handle

def comWriterUnlock (handle : Addr) : Option ComState := do
  let (a, object) ← s.enter handle
  let object' ← releaseLock { object with checksum := calcChecksumObjectBuffer object } self
  return { s.setObject a object' with invoked := runCallbacks object }

def comReaderUnlock (handle : Addr) : Option ComState := do
  let (a, object) ← s.enter handle
  if object.checksum ≠ calcChecksumObjectBuffer object then none
  else
    let object ← releaseLock object self
    return s.setObject a object

/-- A call under way goes on. -/
def comAdvance : Option ComState := do
  let call ← s.calls.lookup self
  let (a, object) ← s.deref call.handle
  let go (pc : ComCallPc) : ComState := { s with calls := s.calls.insert self { call with pc } }
  match call.pc with
  | .found size buffer =>
    match object.buffer, buffer with
    | none, some buffer => some (go (.waiting size buffer))
    | _, _ => some (go .leaving)
  | .waiting size buffer =>
    if rwlockFree object.rwlock .writer then
      some ((go (.filling size buffer)).setObject a (rwlockLock object .writer self))
    else none
  | .filling size buffer =>
    let object ← setThreadIdRecord object self .writerAcquired
    let object := newObjectBuffer object size buffer
    let object := { object with checksum := calcChecksumObjectBuffer object }
    let object' ← releaseLock object self
    some { s.setObject a object' with calls := s.calls.erase self, invoked := runCallbacks object }
  | .leaving =>
    let object ← setThreadIdRecord object self .none
    some { s.setObject a { object with inUse := object.inUse - 1 } with calls := s.calls.erase self }
  | .locking kind =>
    if rwlockFree object.rwlock kind then some ((go (.locked kind)).setObject a (rwlockLock object kind self)) else none
  | .locked kind =>
    let object ← setThreadIdRecord object self kind.acquired
    some { s.setObject a object with calls := s.calls.erase self }

/-- A thread that has the lock writes the data through the pointer the lock call gave it. -/
def writeBuffer (handle : Addr) (buffer : List Byte) : Option ComState := do
  let (a, object) ← s.deref handle
  let old ← object.buffer
  if object.rwlock.any (·.2 = self) && buffer.length = old.length then
    return s.setObject a { object with buffer := some buffer }
  else none

end

/-- The calls of a thread, and what it does between them. -/
inductive ComAction
  | create (self : ThreadId) (objectId : CString) (size : MtcU32) (buffer : Option (List Byte)) (new handle : Addr)
  | openObject (self : ThreadId) (objectId : CString) (new handle : Addr)
  | close (self : ThreadId) (handle : Addr)
  | registerCallback (self : ThreadId) (handle func : Addr)
  | deregisterCallback (self : ThreadId) (handle func : Addr)
  | writerLock (self : ThreadId) (handle : Addr)
  | readerLock (self : ThreadId) (handle : Addr)
  | writerUnlock (self : ThreadId) (handle : Addr)
  | readerUnlock (self : ThreadId) (handle : Addr)
  | write (self : ThreadId) (handle : Addr) (buffer : List Byte)
  | advance (self : ThreadId)

/-- The thread of an action that starts something: it is in no call. -/
def ComAction.idle : ComAction → Option ThreadId
  | .create self .. | .openObject self .. | .close self .. | .registerCallback self .. | .deregisterCallback self ..
  | .writerLock self .. | .readerLock self .. | .writerUnlock self .. | .readerUnlock self .. | .write self .. => some self
  | .advance _ => none

def ComAction.run (s : ComState) : ComAction → Option ComState
  | .create self objectId size buffer new handle => comCreate s self objectId size buffer new handle
  | .openObject self objectId new handle => comOpen s self objectId new handle
  | .close _ handle => comClose s handle
  | .registerCallback _ handle func => comRegisterCallback s handle func
  | .deregisterCallback _ handle func => comDeregisterCallback s handle func
  | .writerLock self handle => comWriterLock s self handle
  | .readerLock self handle => comReaderLock s self handle
  | .writerUnlock self handle => comWriterUnlock s self handle
  | .readerUnlock self handle => comReaderUnlock s self handle
  | .write self handle buffer => writeBuffer s self handle buffer
  | .advance self => comAdvance s self

/-- A step of the threads of the daemon. -/
def comNext (s : ComState) (a : ComAction) : Option ComState :=
  if a.idle.any fun self => (s.calls.lookup self).isSome then none else a.run { s with invoked := [] }

/-- The runs of the object manager. -/
def comManager : Machine ComState ComAction where
  init := (· = ComState.initial)
  next := comNext

/-- A call is passed a handle that is open, and a handle is closed when no call under way uses it. -/
def UsesOpen (s : ComState) : ComAction → Prop
  | .create .. | .openObject .. | .advance _ => True
  | .close _ handle => (s.handle.lookup handle).isSome ∧ ∀ e ∈ s.calls.entries, e.2.handle ≠ handle
  | .registerCallback _ handle _ | .deregisterCallback _ handle _ | .writerLock _ handle | .readerLock _ handle
  | .writerUnlock _ handle | .readerUnlock _ handle | .write _ handle _ => (s.handle.lookup handle).isSome

instance (s : ComState) : ∀ a, Decidable (UsesOpen s a)
  | .create .. | .openObject .. | .advance _ => inferInstanceAs (Decidable True)
  | .close _ handle => inferInstanceAs (Decidable ((s.handle.lookup handle).isSome ∧ ∀ e ∈ s.calls.entries, e.2.handle ≠ handle))
  | .registerCallback _ handle _ | .deregisterCallback _ handle _ | .writerLock _ handle | .readerLock _ handle
  | .writerUnlock _ handle | .readerUnlock _ handle | .write _ handle _ =>
    inferInstanceAs (Decidable ((s.handle.lookup handle).isSome : Prop))

end Xha
