/-
Lock sections (com.c): threads that take the locks of the common objects in sections, each of which asks for them in
order and gives them up the last one first. Such threads keep the discipline of the object manager, so that no assertion
of its lock calls fails, and wherever they stand, all of them can go on until each is out of its section
(`lock_sections_finish`; for the sections of the daemon, `daemon_never_deadlocks`): one of them can always go on, and
each step leaves less to do.
-/
import Mathlib.Algebra.Order.BigOperators.Group.Finset
import Xha.Com.Progress

namespace Xha

open Transition LockOrder

/-! ## Threads in sections -/

/-- The id of the object behind a handle. -/
def ComState.idOf (s : ComState) (handle : Addr) : Option CString := (s.deref handle).map (·.2.objectId)

/-- There is a handle of the object with an id. -/
def ComState.Opens (s : ComState) (objectId : CString) : Prop := ∃ handle ∈ s.handle.keys, s.idOf handle = some objectId

/-- What an action asks of the lock of an object. -/
def ComState.op (s : ComState) (a : ComAction) : Option (Op LockKind CString) :=
  (a.handle.bind s.idOf).bind fun objectId =>
    (a.locks.map fun kind => .acquire kind objectId).or (a.unlocks.map fun kind => .release kind objectId)

/-- The handle that an action closes. -/
def ComAction.closes : ComAction → Option Addr
  | .close _ handle => some handle
  | _ => none

/-- The object manager, and where each thread is in its lock section. -/
structure Sections (rank : CString → Nat) where
  com : ComState
  place : ThreadId → Place LockKind CString rank

/-- A thread goes into a lock section, or does something with the object manager. -/
inductive SectionAction (rank : CString → Nat)
  | enter (self : ThreadId) (sequence : Sequence LockKind CString rank)
  | call (a : ComAction)

section

variable {rank : CString → Nat} {threads : Finset ThreadId} {s s' : Sections rank} {self t : ThreadId} {kind : LockKind}
  {objectId : CString} {a : ComAction}

/-- A lock call of a thread is the next one of its section. -/
def sectionNext (s : Sections rank) : SectionAction rank → Option (Sections rank)
  | .enter self sequence =>
    if (s.com.calls.lookup self).isSome || !(s.place self).ops.isEmpty then none
    else some { s with place := Function.update s.place self sequence.start }
  | .call a =>
    (comNext s.com a).bind fun com =>
      match s.com.op a with
      | none => some { s with com }
      | some op => ((s.place a.self).follow op).map fun place => ⟨com, Function.update s.place a.self place⟩

def lockSections (rank : CString → Nat) : Machine (Sections rank) (SectionAction rank) where
  init := (· = ⟨.initial, fun _ => .out⟩)
  next := sectionNext

/-- What the threads see to besides: outside of their sections they create and open objects, and they write with the
writer lock; as long as a section goes on there is a handle for what it locks. -/
structure CallOk (threads : Finset ThreadId) (s : Sections rank) (a : ComAction) : Prop where
  opened : UsesOpen s.com a
  few : FewHandles s.com a
  thread : a.self ∈ threads
  outside : a.opens ≠ none → (s.place a.self).ops = []
  writes : MayWrite s.com a
  stays : ∀ handle ∈ a.closes, ∀ t ∈ threads, ∀ op ∈ (s.place t).ops, ∃ other ∈ s.com.handle.keys, other ≠ handle ∧
    s.com.idOf other = some op.lock

def SectionOk (threads : Finset ThreadId) (s : Sections rank) : SectionAction rank → Prop
  | .enter self sequence => self ∈ threads ∧ ∀ op ∈ sequence.ops, s.com.Opens op.lock
  | .call a => CallOk threads s a

/-! ## Where the threads are -/

/-- A thread has a lock of the object with an id. -/
def ComState.Has (s : ComState) (t : ThreadId) (kind : LockKind) (objectId : CString) : Prop :=
  ∃ o object, s.object o = some object ∧ object.objectId = objectId ∧ (kind, t) ∈ object.rwlock

/-- A thread is in the call that asks for a lock of the object with an id. -/
def ComState.Asks (s : ComState) (t : ThreadId) (kind : LockKind) (objectId : CString) : Prop :=
  ∃ c, s.calls.lookup t = some c ∧ c.pc = .locking kind ∧ s.idOf c.handle = some objectId

/-- A call of `com_create`. -/
def ComCallPc.creates : ComCallPc → Bool
  | .locking _ | .locked _ => false
  | _ => true

def ComState.Creates (s : ComState) (t : ThreadId) : Prop := ∃ c, s.calls.lookup t = some c ∧ c.pc.creates = true

/-- A thread fills in the object with an id. -/
def ComState.Fills (s : ComState) (t : ThreadId) (objectId : CString) : Prop :=
  ∃ c, s.calls.lookup t = some c ∧ c.pc.creates = true ∧ c.pc.has ≠ none ∧ s.idOf c.handle = some objectId

/-- The locks that a thread has or asks for are those of its place; in `com_create` it is in no section. -/
structure ThreadAt (s : Sections rank) (t : ThreadId) : Prop where
  locks : ¬s.com.Creates t → ∀ kind objectId,
    (kind, objectId) ∈ (s.place t).held ↔ s.com.Has t kind objectId ∨ s.com.Asks t kind objectId
  creating : s.com.Creates t → (s.place t).ops = [] ∧ ∀ kind objectId, s.com.Has t kind objectId → s.com.Fills t objectId

structure SectionInv (threads : Finset ThreadId) (s : Sections rank) : Prop where
  lock : ComLockInv rank threads s.com
  places : ∀ t, ThreadAt s t
  opens : ∀ t, ∀ op ∈ (s.place t).ops, s.com.Opens op.lock
  threads : ∀ t, (s.place t).ops ≠ [] → t ∈ threads

end

section

variable {rank : CString → Nat} {threads : Finset ThreadId} {s s' : ComState} {self t : ThreadId} {kind : LockKind}
  {objectId : CString} {a : ComAction} {o o' handle : Addr} {object object' : HaCommonObject}

theorem ComState.idOf_of (hobj : s.objectOf handle = some o) (hlive : s.object o = some object) :
    s.idOf handle = some object.objectId := by
  rw [idOf, deref_of hobj hlive]
  rfl

theorem ComState.idOf_eq_some : s.idOf handle = some objectId ↔
    ∃ o object, s.objectOf handle = some o ∧ s.object o = some object ∧ object.objectId = objectId := by
  constructor
  · intro h
    obtain ⟨⟨o, object⟩, hderef, rfl⟩ := Option.map_eq_some_iff.1 h
    obtain ⟨hobj, hlive⟩ := deref_eq_some hderef
    exact ⟨o, object, hobj, hlive, rfl⟩
  · rintro ⟨o, object, hobj, hlive, rfl⟩
    exact idOf_of hobj hlive

theorem ComState.mem_keys (h : s.objectOf handle ≠ none) : handle ∈ s.handle.keys := by
  obtain ⟨o, hobj⟩ := Option.ne_none_iff_exists'.1 h
  obtain ⟨x, hx, -⟩ := Option.map_eq_some_iff.1 hobj
  exact Finmap.mem_keys.2 (Finmap.mem_of_lookup_eq_some hx)

theorem ComState.opens_of (h : s.idOf handle = some objectId) : s.Opens objectId := by
  obtain ⟨o, object, hobj, -, -⟩ := idOf_eq_some.1 h
  exact ⟨handle, mem_keys (by rw [hobj]; exact Option.some_ne_none o), h⟩

/-- Objects have different ids. -/
theorem ComInv.unique (hinv : ComInv s) (hlive : s.object o = some object) (hlive' : s.object o' = some object')
    (hid : object'.objectId = object.objectId) : o' = o := by
  have hkey := hinv.table.find_eq_some.2 (ComState.key_eq_some.2 ⟨object, hlive, rfl⟩)
  have hkey' := hinv.table.find_eq_some.2 (ComState.key_eq_some.2 ⟨object', hlive', hid⟩)
  exact Option.some.inj (hkey'.symm.trans hkey)

theorem ComInv.has_iff (hinv : ComInv s) (hlive : s.object o = some object) :
    s.Has t kind object.objectId ↔ (kind, t) ∈ object.rwlock := by
  constructor
  · rintro ⟨o', object', hlive', hid, hmem⟩
    obtain rfl := hinv.unique hlive hlive' hid
    rw [hlive] at hlive'
    cases hlive'
    exact hmem
  · intro hmem
    exact ⟨o, object, hlive, rfl, hmem⟩

/-- A write to one object does not touch the locks of the others. -/
theorem ComState.has_other (hlive : s.object o = some object) (hobject : s'.object = Function.update s.object o (some object'))
    (hid : object'.objectId = object.objectId) (hne : objectId ≠ object.objectId) :
    s'.Has t kind objectId ↔ s.Has t kind objectId := by
  constructor
  · rintro ⟨o', x, hlive', rfl, hmem⟩
    rcases object_update hobject hlive' with ⟨rfl, ⟨⟩⟩ | ⟨-, hlive'⟩
    · exact absurd hid hne
    · exact ⟨o', x, hlive', rfl, hmem⟩
  · rintro ⟨o', x, hlive', rfl, hmem⟩
    have ho : o' ≠ o := by
      rintro rfl
      rw [hlive] at hlive'
      cases hlive'
      exact hne rfl
    exact ⟨o', x, by rw [hobject, Function.update_of_ne ho, hlive'], rfl, hmem⟩

/-! ## What a step leaves alone -/

/-- The locks of a thread and its call stay. -/
structure ThreadKept (s s' : ComState) (t : ThreadId) : Prop where
  has : ∀ kind objectId, s'.Has t kind objectId ↔ s.Has t kind objectId
  call : s'.calls.lookup t = s.calls.lookup t
  ids : ∀ c ∈ s.calls.lookup t, s'.idOf c.handle = s.idOf c.handle

theorem ThreadKept.creates (h : ThreadKept s s' t) : s'.Creates t ↔ s.Creates t := by
  unfold ComState.Creates
  rw [h.call]

theorem ThreadKept.asks (h : ThreadKept s s' t) : s'.Asks t kind objectId ↔ s.Asks t kind objectId := by
  unfold ComState.Asks
  rw [h.call]
  refine exists_congr fun c => and_congr_right fun hc => and_congr_right fun _ => ?_
  rw [h.ids c hc]

theorem ThreadKept.fills (h : ThreadKept s s' t) : s'.Fills t objectId ↔ s.Fills t objectId := by
  unfold ComState.Fills
  rw [h.call]
  refine exists_congr fun c => and_congr_right fun hc => and_congr_right fun _ => and_congr_right fun _ => ?_
  rw [h.ids c hc]

theorem ThreadKept.threadAt {s s' : Sections rank} (h : ThreadKept s.com s'.com t) (hplace : s'.place t = s.place t)
    (hat : ThreadAt s t) : ThreadAt s' t := by
  constructor
  · intro hno kind objectId
    rw [hplace, h.has, h.asks]
    exact hat.locks (fun hc => hno (h.creates.2 hc)) kind objectId
  · intro hc
    obtain ⟨hops, hfills⟩ := hat.creating (h.creates.1 hc)
    rw [hplace]
    exact ⟨hops, fun kind objectId hhas => h.fills.2 (hfills kind objectId ((h.has _ _).1 hhas))⟩

/-- A handle that is not closed keeps its object. -/
theorem LockStep.idOf (hstep : LockStep s a s') (hinv : ComInv s') (hclose : handle ∉ a.closes)
    (h : s.idOf handle = some objectId) : s'.idOf handle = some objectId := by
  obtain ⟨o, object, hobj, hlive, rfl⟩ := ComState.idOf_eq_some.1 h
  have hne : s.objectOf handle ≠ none := by rw [hobj]; exact Option.some_ne_none o
  -- the object behind the handle is live, with the id it had
  suffices hkept : s'.objectOf handle = some o ∧ ∀ object', s'.object o = some object' → object'.objectId = object.objectId by
    obtain ⟨object', hlive'⟩ := Option.ne_none_iff_exists'.1 (hinv.live handle o hkept.1)
    rw [← hkept.2 object' hlive']
    exact ComState.idOf_of hkept.1 hlive'
  cases hstep with
  | touched hlive₁ hobject hid hon hon' hhandle hcall hkeep hcalls =>
    refine ⟨(hkeep handle hne).trans hobj, fun object' hlive' => ?_⟩
    rcases object_update hobject hlive' with ⟨rfl, ⟨⟩⟩ | ⟨-, hlive'⟩
    · rw [hlive] at hlive₁
      cases hlive₁
      exact hid
    · rw [hlive] at hlive'
      cases hlive'
      rfl
  | created hopens hnone hobject hlock hsum hkeep hcalls =>
    refine ⟨(hkeep handle hne).trans hobj, fun object' hlive' => ?_⟩
    rcases object_update hobject hlive' with ⟨rfl, -⟩ | ⟨-, hlive'⟩
    · rw [hlive] at hnone
      cases hnone
    · rw [hlive] at hlive'
      cases hlive'
      rfl
  | @closed _ _ closing _ x ha hlive₁ hx hobject hkeep hcalls =>
    have hother : handle ≠ closing := by
      rintro rfl
      exact hclose (by rw [ha]; rfl)
    refine ⟨(hkeep handle hother).trans hobj, fun object' hlive' => ?_⟩
    rcases object_update hobject hlive' with ⟨rfl, hx'⟩ | ⟨-, hlive'⟩
    · rw [hlive] at hlive₁
      cases hlive₁
      rcases hx with rfl | rfl
      · cases hx'
      · cases hx'
        rfl
    · rw [hlive] at hlive'
      cases hlive'
      rfl

/-- The handle of a call is not closed. -/
theorem UsesOpen.not_closes (hopen : UsesOpen s a) {c : ComCall} (hc : s.calls.lookup t = some c) : c.handle ∉ a.closes := by
  cases a with
  | close _ closing =>
    rintro ⟨⟩
    exact hopen.2 ⟨t, c⟩ (Finmap.mem_lookup_iff.1 hc) rfl
  | create | openObject | registerCallback | deregisterCallback | writerLock | readerLock | writerUnlock | readerUnlock
  | write | advance => exact nofun

theorem ComLockInv.idOf_call (hinv : ComLockInv rank threads s) {c : ComCall} (hc : s.calls.lookup t = some c) :
    ∃ objectId, s.idOf c.handle = some objectId := by
  obtain ⟨o, object, -, hobj, hlive⟩ := hinv.deref hc
  exact ⟨object.objectId, ComState.idOf_of hobj hlive⟩

theorem LockStep.ids (hstep : LockStep s a s') (hinv : ComLockInv rank threads s) (hinv' : ComInv s') (hopen : UsesOpen s a)
    {c : ComCall} (hc : s.calls.lookup t = some c) : s'.idOf c.handle = s.idOf c.handle := by
  obtain ⟨objectId, hid⟩ := hinv.idOf_call hc
  rw [hid]
  exact hstep.idOf hinv' (hopen.not_closes hc) hid

theorem ThreadKept.touched (hinv : ComInv s) (hinv' : ComInv s') (hlive : s.object o = some object)
    (hobject : s'.object = Function.update s.object o (some object')) (hid : object'.objectId = object.objectId)
    (hmem : ∀ kind, (kind, t) ∈ object'.rwlock ↔ (kind, t) ∈ object.rwlock) (hcall : s'.calls.lookup t = s.calls.lookup t)
    (hids : ∀ c ∈ s.calls.lookup t, s'.idOf c.handle = s.idOf c.handle) : ThreadKept s s' t := by
  refine ⟨fun kind objectId => ?_, hcall, hids⟩
  by_cases hne : objectId = object.objectId
  · have hlive' : s'.object o = some object' := by rw [hobject, Function.update_self]
    subst hne
    rw [hinv.has_iff hlive, ← hid, hinv'.has_iff hlive']
    exact hmem kind
  · exact ComState.has_other hlive hobject hid hne

theorem ThreadKept.created (hnone : s.object o = none) (hobject : s'.object = Function.update s.object o (some object'))
    (hlock : object'.rwlock = []) (hcalls : s'.calls = s.calls)
    (hids : ∀ c ∈ s.calls.lookup t, s'.idOf c.handle = s.idOf c.handle) : ThreadKept s s' t := by
  refine ⟨fun kind objectId => ⟨?_, ?_⟩, by rw [hcalls], hids⟩
  · rintro ⟨o', x, hlive', rfl, hmem⟩
    rcases object_update hobject hlive' with ⟨rfl, ⟨⟩⟩ | ⟨-, hlive'⟩
    · rw [hlock] at hmem
      exact absurd hmem List.not_mem_nil
    · exact ⟨o', x, hlive', rfl, hmem⟩
  · rintro ⟨o', x, hlive', rfl, hmem⟩
    refine ⟨o', x, ?_, rfl, hmem⟩
    rw [hobject, Function.update_of_ne, hlive']
    rintro rfl
    rw [hnone] at hlive'
    cases hlive'

/-- An object with a lock is not freed. -/
theorem ThreadKept.closed {x : Option HaCommonObject} (hinv : ComInv s) (hopen : UsesOpen s a) (hn : comNext s a = some s')
    (hlive : s.object o = some object) (hx : x = none ∨ x = some object.unref)
    (hobject : s'.object = Function.update s.object o x) (hcalls : s'.calls = s.calls)
    (hids : ∀ c ∈ s.calls.lookup t, s'.idOf c.handle = s.idOf c.handle) : ThreadKept s s' t := by
  refine ⟨fun kind objectId => ⟨?_, ?_⟩, by rw [hcalls], hids⟩
  · rintro ⟨o', y, hlive', rfl, hmem⟩
    rcases object_update hobject hlive' with ⟨rfl, hx'⟩ | ⟨-, hlive'⟩
    · rcases hx with rfl | rfl
      · cases hx'
      · cases hx'
        exact ⟨o', object, hlive, rfl, hmem⟩
    · exact ⟨o', y, hlive', rfl, hmem⟩
  · rintro ⟨o', y, hlive', rfl, hmem⟩
    by_cases ho : o' = o
    · subst ho
      rw [hlive] at hlive'
      cases hlive'
      rcases hinv.next_object hopen hn hlive with ⟨y', hy', hid⟩ | ⟨-, _, _, -, -, -, hlock, -⟩
      · refine ⟨o', y', hy', hid, ?_⟩
        rcases object_update hobject hy' with ⟨-, hx'⟩ | ⟨hne, -⟩
        · rcases hx with rfl | rfl
          · cases hx'
          · cases hx'
            exact hmem
        · exact absurd rfl hne
      · rw [hlock] at hmem
        exact absurd hmem List.not_mem_nil
    · exact ⟨o', y, by rw [hobject, Function.update_of_ne ho, hlive'], rfl, hmem⟩

/-- A step leaves the locks and the call of another thread alone. -/
theorem LockStep.kept (hstep : LockStep s a s') (hinv : ComLockInv rank threads s) (hinv' : ComInv s') (hopen : UsesOpen s a)
    (hn : comNext s a = some s') (ht : t ≠ a.self) : ThreadKept s s' t := by
  have hids := fun c (hc : s.calls.lookup t = some c) => hstep.ids hinv hinv' hopen hc
  cases hstep with
  | touched hlive hobject hid hon hon' hhandle hcall hkeep hcalls =>
    exact .touched hinv.counted hinv' hlive hobject hid (fun _ => hcall.mem_other ht) (hcalls t ht) hids
  | created hopens hnone hobject hlock hsum hkeep hcalls => exact .created hnone hobject hlock hcalls hids
  | closed ha hlive hx hobject hkeep hcalls => exact .closed hinv.counted hopen hn hlive hx hobject hcalls hids

end

section

variable {rank : CString → Nat} {threads : Finset ThreadId} {s s' : Sections rank} {self t : ThreadId} {kind : LockKind}
  {objectId : CString} {a : ComAction} {o o' handle : Addr} {object object' : HaCommonObject}
  {op : Op LockKind CString} {ops : List (Op LockKind CString)} {before after : Option ComCallPc}

/-! ## What a step does to the place of its thread -/

theorem ComState.op_eq_none {s : ComState} (hlocks : a.locks = none) (hunlocks : a.unlocks = none) : s.op a = none := by
  unfold ComState.op
  rw [hlocks, hunlocks]
  cases a.handle.bind s.idOf <;> rfl

theorem ComState.op_acquire {s : ComState} (hlocks : a.locks = some kind) (ha : a.handle = some handle)
    (hid : s.idOf handle = some objectId) : s.op a = some (.acquire kind objectId) := by
  rw [ComState.op, ha, Option.bind_some, hid, Option.bind_some, hlocks]
  rfl

theorem ComState.op_release {s : ComState} (hunlocks : a.unlocks = some kind) (ha : a.handle = some handle)
    (hid : s.idOf handle = some objectId) : s.op a = some (.release kind objectId) := by
  have hlocks : a.locks = none := by
    cases a with
    | writerUnlock | readerUnlock => rfl
    | create | openObject | close | registerCallback | deregisterCallback | writerLock | readerLock | write | advance =>
      cases hunlocks
  rw [ComState.op, ha, Option.bind_some, hid, Option.bind_some, hlocks, hunlocks]
  rfl

theorem ComAction.handle_of_locks (h : a.locks = some kind) : ∃ handle, a.handle = some handle := by
  cases a with
  | writerLock _ handle | readerLock _ handle => exact ⟨handle, rfl⟩
  | create | openObject | close | registerCallback | deregisterCallback | writerUnlock | readerUnlock | write | advance =>
    cases h

theorem ComAction.handle_of_unlocks (h : a.unlocks = some kind) : ∃ handle, a.handle = some handle := by
  cases a with
  | writerUnlock _ handle | readerUnlock _ handle => exact ⟨handle, rfl⟩
  | create | openObject | close | registerCallback | deregisterCallback | writerLock | readerLock | write | advance =>
    cases h

theorem ComAction.quiet_of_opens (h : a.opens = some objectId) : a.locks = none ∧ a.unlocks = none := by
  cases a with
  | create | openObject => exact ⟨rfl, rfl⟩
  | close | registerCallback | deregisterCallback | writerLock | readerLock | writerUnlock | readerUnlock | write | advance =>
    cases h

theorem sectionNext_call (h : sectionNext s (.call a) = some s') :
    comNext s.com a = some s'.com ∧ (∀ t, t ≠ a.self → s'.place t = s.place t) ∧
      (s.com.op a = none ∧ s'.place a.self = s.place a.self ∨
        ∃ op, s.com.op a = some op ∧ (s.place a.self).follow op = some (s'.place a.self)) := by
  obtain ⟨com, hcom, hs'⟩ := Option.bind_eq_some_iff.1 h
  cases hop : s.com.op a with
  | none =>
    rw [hop] at hs'
    cases hs'
    exact ⟨hcom, fun _ _ => rfl, .inl ⟨rfl, rfl⟩⟩
  | some op =>
    rw [hop] at hs'
    obtain ⟨place, hplace, rfl⟩ := Option.map_eq_some_iff.1 hs'
    refine ⟨hcom, fun t ht => Function.update_of_ne ht .., .inr ⟨op, rfl, ?_⟩⟩
    rw [hplace]
    exact congrArg some (Function.update_self a.self place s.place).symm

theorem ComState.not_creates (h : s.com.calls.lookup t = none) : ¬s.com.Creates t := by
  rintro ⟨c, hc, -⟩
  rw [h] at hc
  cases hc

theorem ComState.not_asks (h : s.com.calls.lookup t = none) : ¬s.com.Asks t kind objectId := by
  rintro ⟨c, hc, -⟩
  rw [h] at hc
  cases hc

/-- A thread that is in no call has the locks of its place. -/
theorem ThreadAt.idle (hat : ThreadAt s t) (h : s.com.calls.lookup t = none) :
    (kind, objectId) ∈ (s.place t).held ↔ s.com.Has t kind objectId := by
  rw [hat.locks (ComState.not_creates h), or_iff_left (ComState.not_asks h)]

/-- A thread in no section has no lock, except for the one it fills in an object with. -/
theorem ThreadAt.out (hat : ThreadAt s t) (h : s.com.calls.lookup t = none) (hops : (s.place t).ops = []) :
    ¬s.com.Has t kind objectId := by
  rw [← hat.idle h, Place.held_eq_nil hops]
  exact List.not_mem_nil

theorem ComState.lookup_of_pc {s : ComState} {pc : ComCallPc} (h : s.pc t = some pc) :
    ∃ c, s.calls.lookup t = some c ∧ c.pc = pc := by
  obtain ⟨c, hc, hpc⟩ := Option.map_eq_some_iff.1 h
  exact ⟨c, hc, hpc⟩

theorem ComState.lookup_of_no_pc {s : ComState} (h : s.pc t = none) : s.calls.lookup t = none :=
  Option.map_eq_none_iff.1 h

theorem ComState.creates_iff {s : ComState} : s.Creates t ↔ (s.pc t).any (·.creates) = true := by
  rw [ComState.pc, Option.any_map]
  cases hc : s.calls.lookup t with
  | none =>
    refine iff_of_false ?_ Bool.false_ne_true
    rintro ⟨c, hc', -⟩
    rw [hc] at hc'
    cases hc'
  | some c =>
    constructor
    · rintro ⟨c', hc', hpc⟩
      rw [hc] at hc'
      cases hc'
      exact hpc
    · intro hpc
      exact ⟨c, hc, hpc⟩

theorem ComState.asks_iff {s : ComState} (hid : ∀ c ∈ s.calls.lookup t, s.idOf c.handle = some object.objectId) :
    s.Asks t kind objectId ↔ s.pc t = some (.locking kind) ∧ objectId = object.objectId := by
  constructor
  · rintro ⟨c, hc, hpc, hobj⟩
    rw [hid c hc] at hobj
    exact ⟨by rw [ComState.pc, hc, Option.map_some, hpc], (Option.some.inj hobj).symm⟩
  · rintro ⟨hpc, rfl⟩
    obtain ⟨c, hc, hpc⟩ := lookup_of_pc hpc
    exact ⟨c, hc, hpc, hid c hc⟩

theorem ComState.fills_iff {s : ComState} (hid : ∀ c ∈ s.calls.lookup t, s.idOf c.handle = some object.objectId) :
    s.Fills t objectId ↔ (∃ pc, s.pc t = some pc ∧ pc.creates = true ∧ pc.has ≠ none) ∧ objectId = object.objectId := by
  constructor
  · rintro ⟨c, hc, hcreates, hhas, hobj⟩
    rw [hid c hc] at hobj
    exact ⟨⟨c.pc, by rw [ComState.pc, hc, Option.map_some], hcreates, hhas⟩, (Option.some.inj hobj).symm⟩
  · rintro ⟨⟨pc, hpc, hcreates, hhas⟩, rfl⟩
    obtain ⟨c, hc, rfl⟩ := lookup_of_pc hpc
    exact ⟨c, hc, hcreates, hhas, hid c hc⟩

theorem not_mem_of_releases (h : Releases t object object') (hnodup : object.holders.Nodup) : (kind, t) ∉ object'.rwlock := by
  rw [h.rwlock]
  have hnodup : (object.rwlock.map (·.2)).Nodup := Multiset.coe_nodup.1 hnodup
  generalize object.rwlock = rwlock at hnodup
  intro hmem
  induction rwlock with
  | nil => exact absurd hmem List.not_mem_nil
  | cons e rwlock ih =>
    rw [List.map_cons, List.nodup_cons] at hnodup
    by_cases he : e.2 = t
    · rw [List.eraseP_cons_of_pos (by simpa using he)] at hmem
      exact hnodup.1 (List.mem_map.2 ⟨_, hmem, he.symm⟩)
    · rw [List.eraseP_cons_of_neg (by simpa using he), List.mem_cons] at hmem
      rcases hmem with rfl | hmem
      · exact he rfl
      · exact ih hnodup.2 hmem

/-- The thread of a step at an object: the locks it has of it before and behind, those of other objects, its call. -/
structure AtObject (s s' : Sections rank) (t : ThreadId) (object object' : HaCommonObject) : Prop where
  has : ∀ kind, s.com.Has t kind object.objectId ↔ (kind, t) ∈ object.rwlock
  has' : ∀ kind, s'.com.Has t kind object.objectId ↔ (kind, t) ∈ object'.rwlock
  other : ∀ kind objectId, objectId ≠ object.objectId → (s'.com.Has t kind objectId ↔ s.com.Has t kind objectId)
  id : ∀ c ∈ s.com.calls.lookup t, s.com.idOf c.handle = some object.objectId
  id' : ∀ c ∈ s'.com.calls.lookup t, s'.com.idOf c.handle = some object.objectId

theorem AtObject.same (h : AtObject s s' t object object') (hlock : object'.rwlock = object.rwlock) :
    s'.com.Has t kind objectId ↔ s.com.Has t kind objectId := by
  by_cases hid : objectId = object.objectId
  · rw [hid, h.has, h.has', hlock]
  · exact h.other kind objectId hid

theorem ThreadAt.of_idle (hidle : s'.com.calls.lookup t = none)
    (h : ∀ kind objectId, (kind, objectId) ∈ (s'.place t).held ↔ s'.com.Has t kind objectId) : ThreadAt s' t := by
  constructor
  · intro _ kind objectId
    rw [h, or_iff_left (ComState.not_asks hidle)]
  · intro hc
    exact absurd hc (ComState.not_creates hidle)

/-- In `com_create` before it has the lock, a thread has no lock. -/
theorem ThreadAt.not_has (hat : ThreadAt s t) (hown : AtObject s s' t object object') {pc : ComCallPc} (hpc : s.com.pc t = some pc)
    (hcreates : pc.creates = true) (hhas : pc.has = none) : ¬s.com.Has t kind objectId := by
  intro hmem
  have hc : s.com.Creates t := ComState.creates_iff.2 (by rw [hpc]; exact hcreates)
  obtain ⟨⟨pc', hpc', -, hhas'⟩, -⟩ := (ComState.fills_iff hown.id).1 ((hat.creating hc).2 kind objectId hmem)
  rw [hpc] at hpc'
  cases hpc'
  exact hhas' hhas

/-- The thread of a step at an object has the locks of its place again. -/
theorem ThreadAt.own (hat : ThreadAt s self) (hown : AtObject s s' self object object')
    (hstep : CallStep self object object' a before after) (hbefore : s.com.pc self = before) (hafter : s'.com.pc self = after)
    (hnodup : object.holders.Nodup) (hquiet : a.locks = none → a.unlocks = none → s'.place self = s.place self)
    (hlocks : ∀ kind, a.locks = some kind → (s.place self).follow (.acquire kind object.objectId) = some (s'.place self))
    (hunlocks : ∀ kind, a.unlocks = some kind → (s.place self).follow (.release kind object.objectId) = some (s'.place self))
    (houtside : a.opens ≠ none → (s.place self).ops = []) : ThreadAt s' self := by
  cases hstep with
  | callbacks _ hno hno' hsame =>
    refine .of_idle (ComState.lookup_of_no_pc hafter) fun kind objectId => ?_
    rw [hquiet hno hno', hat.idle (ComState.lookup_of_no_pc hbefore), hown.same hsame.rwlock]
  | @unlocks _ kind hkind hrelease _ =>
    have hidle := ComState.lookup_of_no_pc hbefore
    obtain ⟨hheld, hbelow⟩ := Place.release (hunlocks kind hkind)
    refine .of_idle (ComState.lookup_of_no_pc hafter) fun kind' objectId => ?_
    by_cases hid : objectId = object.objectId
    · subst hid
      rw [hown.has']
      exact iff_of_false (fun hmem => lt_irrefl _ (hbelow _ hmem)) (not_mem_of_releases hrelease hnodup)
    · rw [hown.other _ _ hid, ← hat.idle hidle, hheld, List.mem_cons, or_iff_right]
      rintro ⟨⟩
      exact hid rfl
  | writes hlock _ =>
    refine .of_idle (ComState.lookup_of_no_pc hafter) fun kind objectId => ?_
    rw [hquiet rfl rfl, hat.idle (ComState.lookup_of_no_pc hbefore), hown.same hlock]
  | @locks _ kind hkind hsame =>
    obtain ⟨hheld, -⟩ := Place.acquire (hlocks kind hkind)
    constructor
    · intro _ kind' objectId
      rw [hheld, List.mem_cons, hat.idle (ComState.lookup_of_no_pc hbefore), hown.same hsame.rwlock,
        ComState.asks_iff hown.id', hafter, or_comm]
      refine or_congr_right ?_
      constructor
      · rintro ⟨⟩
        exact ⟨rfl, rfl⟩
      · rintro ⟨⟨⟩, rfl⟩
        rfl
    · intro hc
      rw [ComState.creates_iff, hafter] at hc
      cases hc
  | @found _ size buffer hopens hsame =>
    have hops := houtside (by rw [hopens]; exact Option.some_ne_none _)
    obtain ⟨hno, hno'⟩ := ComAction.quiet_of_opens hopens
    constructor
    · intro hno
      exact absurd (ComState.creates_iff.2 (by rw [hafter]; rfl)) hno
    · intro _
      refine ⟨?_, fun kind objectId hhas => ?_⟩
      · rw [hquiet hno hno']
        exact hops
      · exact absurd ((hown.same hsame.rwlock).1 hhas) (hat.out (ComState.lookup_of_no_pc hbefore) hops)
  | waits hsame | leaves hsame =>
    constructor
    · intro hno
      exact absurd (ComState.creates_iff.2 (by rw [hafter]; rfl)) hno
    · intro _
      refine ⟨?_, fun kind objectId hhas => ?_⟩
      · rw [hquiet rfl rfl]
        exact (hat.creating (ComState.creates_iff.2 (by rw [hbefore]; rfl))).1
      · exact absurd ((hown.same hsame.rwlock).1 hhas) (hat.not_has hown hbefore rfl rfl)
  | @takesToFill size buffer htake =>
    constructor
    · intro hno
      exact absurd (ComState.creates_iff.2 (by rw [hafter]; rfl)) hno
    · intro _
      refine ⟨?_, fun kind objectId hhas => ?_⟩
      · rw [hquiet rfl rfl]
        exact (hat.creating (ComState.creates_iff.2 (by rw [hbefore]; rfl))).1
      · refine (ComState.fills_iff hown.id').2 ⟨⟨_, hafter, rfl, Option.some_ne_none _⟩, ?_⟩
        by_contra hid
        exact hat.not_has hown hbefore rfl rfl ((hown.other _ _ hid).1 hhas)
  | @fills size buffer hrelease =>
    obtain ⟨hops, hfills⟩ := hat.creating (ComState.creates_iff.2 (by rw [hbefore]; rfl))
    refine .of_idle (ComState.lookup_of_no_pc hafter) fun kind objectId => ?_
    rw [hquiet rfl rfl, Place.held_eq_nil hops]
    refine iff_of_false List.not_mem_nil fun hhas => ?_
    by_cases hid : objectId = object.objectId
    · subst hid
      exact not_mem_of_releases hrelease hnodup ((hown.has' kind).1 hhas)
    · exact hid ((ComState.fills_iff hown.id).1 (hfills kind objectId ((hown.other _ _ hid).1 hhas))).2
  | left hsame =>
    have hops := (hat.creating (ComState.creates_iff.2 (by rw [hbefore]; rfl))).1
    refine .of_idle (ComState.lookup_of_no_pc hafter) fun kind objectId => ?_
    rw [hquiet rfl rfl, Place.held_eq_nil hops, hown.same hsame.rwlock]
    exact iff_of_false List.not_mem_nil (hat.not_has hown hbefore rfl rfl)
  | @takes kind htake =>
    have hno : ¬s.com.Creates self := by
      rw [ComState.creates_iff, hbefore]
      exact nofun
    constructor
    · intro _ kind' objectId
      rw [hquiet rfl rfl, hat.locks hno, ComState.asks_iff hown.id, ComState.asks_iff hown.id',
        hbefore, hafter]
      by_cases hid : objectId = object.objectId
      · subst hid
        rw [hown.has, hown.has', htake.rwlock, List.mem_cons]
        constructor
        · rintro (hmem | ⟨⟨⟩, -⟩)
          · exact .inl (.inr hmem)
          · exact .inl (.inl rfl)
        · rintro ((heq | hmem) | ⟨⟨⟩, -⟩)
          · obtain ⟨rfl, -⟩ := Prod.mk.inj heq
            exact .inr ⟨rfl, rfl⟩
          · exact .inl hmem
      · rw [hown.other _ _ hid]
        exact or_congr_right (iff_of_false (fun h => hid h.2) fun h => hid h.2)
    · intro hc
      rw [ComState.creates_iff, hafter] at hc
      cases hc
  | settles hsame =>
    have hno : ¬s.com.Creates self := by
      rw [ComState.creates_iff, hbefore]
      exact nofun
    refine .of_idle (ComState.lookup_of_no_pc hafter) fun kind objectId => ?_
    rw [hquiet rfl rfl, hat.locks hno, hown.same hsame.rwlock, ComState.asks_iff hown.id, hbefore]
    refine or_iff_left ?_
    rintro ⟨⟨⟩, -⟩

/-! ## The invariant -/

theorem ComAction.idle_of_op (h : s.com.op a ≠ none) : a.idle = some a.self := by
  cases a with
  | writerLock | readerLock | writerUnlock | readerUnlock => rfl
  | create | openObject | close | registerCallback | deregisterCallback | write | advance =>
    exact absurd (ComState.op_eq_none rfl rfl) h

/-- Threads that follow their sections keep the discipline of the object manager. -/
theorem SectionInv.disciplined (hinv : SectionInv threads s) (hok : CallOk threads s a)
    (hidle : ∀ self ∈ a.idle, s.com.calls.lookup self = none)
    (hfollow : ∀ op, s.com.op a = some op → ∃ p, (s.place a.self).follow op = some p) : Disciplined rank threads s.com a := by
  have hat := hinv.places a.self
  have hhas : ∀ o object, s.com.object o = some object → a.self ∈ object.holders →
      ∃ kind, s.com.Has a.self kind object.objectId := by
    intro o object hlive hmem
    obtain ⟨kind, hmem⟩ := HaCommonObject.mem_holders.1 hmem
    exact ⟨kind, o, object, hlive, rfl, hmem⟩
  refine ⟨hok.opened, hok.few, hok.thread, ?_, ?_, ?_, hok.writes⟩
  · intro objectId hopens o _ object hlive hmem
    obtain ⟨kind, hhas⟩ := hhas o object hlive hmem
    have hself : a.self ∈ a.idle := by
      cases a with
      | create | openObject => rfl
      | close | registerCallback | deregisterCallback | writerLock | readerLock | writerUnlock | readerUnlock | write
      | advance => cases hopens
    have hops := hok.outside (by rw [hopens]; exact Option.some_ne_none _)
    exact absurd hhas (hat.out (hidle _ hself) hops)
  · intro hlocks handle hhandle o hobj object hlive o' _ object' hlive' hmem
    obtain ⟨kind, hkind⟩ := Option.ne_none_iff_exists'.1 hlocks
    have hop := ComState.op_acquire hkind hhandle (ComState.idOf_of hobj hlive)
    have hself : a.self ∈ a.idle := ComAction.idle_of_op (by rw [hop]; exact Option.some_ne_none _)
    obtain ⟨p, hp⟩ := hfollow _ hop
    obtain ⟨kind', hhas⟩ := hhas o' object' hlive' hmem
    exact (Place.acquire hp).2 _ ((hat.idle (hidle _ hself)).2 hhas)
  · intro kind hkind handle hhandle o hobj object hlive
    have hop := ComState.op_release hkind hhandle (ComState.idOf_of hobj hlive)
    have hself : a.self ∈ a.idle := ComAction.idle_of_op (by rw [hop]; exact Option.some_ne_none _)
    obtain ⟨p, hp⟩ := hfollow _ hop
    have hheld : (kind, object.objectId) ∈ (s.place a.self).held := by
      rw [(Place.release hp).1]
      exact List.mem_cons_self
    exact (hinv.lock.counted.has_iff hlive).1 ((hat.idle (hidle _ hself)).1 hheld)

theorem comNext_idle {s s' : ComState} (h : comNext s a = some s') : ∀ self ∈ a.idle, s.calls.lookup self = none := by
  intro self hself
  unfold comNext at h
  split at h
  · cases h
  · rename_i hidle
    rw [hself] at hidle
    simpa using hidle

theorem SectionInv.call (hinv : SectionInv threads s) (hok : CallOk threads s a) (h : sectionNext s (.call a) = some s') :
    SectionInv threads s' := by
  obtain ⟨hcom, hplace, hop⟩ := sectionNext_call h
  have hidle := comNext_idle hcom
  have hd : Disciplined rank threads s.com a := by
    refine hinv.disciplined hok hidle fun op hop' => ?_
    rcases hop with ⟨hnone, -⟩ | ⟨op₁, hop₁, hfollow⟩
    · rw [hnone] at hop'
      cases hop'
    · rw [hop'] at hop₁
      cases hop₁
      exact ⟨_, hfollow⟩
  have hlock := hinv.lock.next hd hcom
  have hstep := LockStep.of_next hinv.lock.counted hcom
  have hquiet : a.locks = none → a.unlocks = none → s'.place a.self = s.place a.self := by
    intro hlocks hunlocks
    rcases hop with ⟨-, hsame⟩ | ⟨op, hop, -⟩
    · exact hsame
    · rw [ComState.op_eq_none hlocks hunlocks] at hop
      cases hop
  have hgoes : ∀ op, s.com.op a = some op → (s.place a.self).follow op = some (s'.place a.self) := by
    intro op hop'
    rcases hop with ⟨hnone, -⟩ | ⟨op₁, hop₁, hfollow⟩
    · rw [hnone] at hop'
      cases hop'
    · rw [hop'] at hop₁
      cases hop₁
      exact hfollow
  have hids := fun c (hc : s.com.calls.lookup a.self = some c) => hstep.ids hinv.lock hlock.counted hok.opened hc
  have hops : ∀ t, ∀ op ∈ (s'.place t).ops, op ∈ (s.place t).ops := by
    intro t op hmem
    by_cases ht : t = a.self
    · subst ht
      rcases hop with ⟨-, hsame⟩ | ⟨op₁, -, hfollow⟩
      · rwa [hsame] at hmem
      · rw [(Place.follow_spec hfollow).1]
        exact List.mem_cons_of_mem _ hmem
    · rwa [hplace t ht] at hmem
  refine ⟨hlock, fun t => ?_, fun t op hmem => ?_, fun t hne => ?_⟩
  · by_cases ht : t = a.self
    · subst ht
      have hat := hinv.places a.self
      have hstep' := hstep
      cases hstep with
      | @touched o object object' hlive hobject hid hon hon' hhandle hcall hkeep hcalls =>
        have hlive' : s'.com.object o = some object' := by rw [hobject, Function.update_self]
        have hown : AtObject s s' a.self object object' := by
          refine ⟨fun kind => hinv.lock.counted.has_iff hlive, fun kind => ?_,
            fun kind objectId => ComState.has_other hlive hobject hid, fun c hc => ComState.idOf_of (hon c hc) hlive,
            fun c hc => ?_⟩
          · rw [← hid, hlock.counted.has_iff hlive']
          · rw [← hid]
            exact ComState.idOf_of (hon' c hc) hlive'
        have hnodup : object.holders.Nodup :=
          Multiset.nodup_of_le (Multiset.le_add_right _ _) (hinv.lock.once o object hlive)
        refine hat.own hown hcall rfl rfl hnodup hquiet (fun kind hkind => ?_) (fun kind hkind => ?_) hok.outside
        · obtain ⟨handle, ha⟩ := ComAction.handle_of_locks hkind
          exact hgoes _ (ComState.op_acquire hkind ha (ComState.idOf_of (hhandle handle ha) hlive))
        · obtain ⟨handle, ha⟩ := ComAction.handle_of_unlocks hkind
          exact hgoes _ (ComState.op_release hkind ha (ComState.idOf_of (hhandle handle ha) hlive))
      | created hopens hnone hobject hlock' hsum hkeep hcalls =>
        obtain ⟨hlocks, hunlocks⟩ := ComAction.quiet_of_opens hopens
        have hkept : ThreadKept s.com s'.com a.self := .created hnone hobject hlock' hcalls hids
        exact hkept.threadAt (hquiet hlocks hunlocks) hat
      | closed ha hlive hx hobject hkeep hcalls =>
        have hkept : ThreadKept s.com s'.com a.self := .closed hinv.lock.counted hok.opened hcom hlive hx hobject hcalls hids
        exact hkept.threadAt (hquiet (by rw [ha]; rfl) (by rw [ha]; rfl)) hat
    · exact (hstep.kept hinv.lock hlock.counted hok.opened hcom ht).threadAt (hplace t ht) (hinv.places t)
  · have hmem := hops t op hmem
    obtain ⟨handle, -, hid⟩ := hinv.opens t op hmem
    by_cases hclose : handle ∈ a.closes
    · obtain ⟨other, -, hne, hid'⟩ := hok.stays handle hclose t (hinv.threads t (List.ne_nil_of_mem hmem)) op hmem
      refine ComState.opens_of (hstep.idOf hlock.counted (fun hclose' => hne ?_) hid')
      exact Option.mem_unique hclose' hclose
    · exact ComState.opens_of (hstep.idOf hlock.counted hclose hid)
  · obtain ⟨op, hmem⟩ := List.exists_mem_of_ne_nil _ hne
    exact hinv.threads t (List.ne_nil_of_mem (hops t op hmem))

theorem SectionInv.enter {sequence : Sequence LockKind CString rank} (hinv : SectionInv threads s)
    (hok : SectionOk threads s (.enter self sequence)) (h : sectionNext s (.enter self sequence) = some s') :
    SectionInv threads s' := by
  obtain ⟨hthread, hopens⟩ := hok
  rw [sectionNext, Option.ite_none_left_eq_some, Option.some.injEq] at h
  obtain ⟨hout, rfl⟩ := h
  have hout : s.com.calls.lookup self = none ∧ (s.place self).ops = [] := by simpa using hout
  have hplace : ∀ t, t ≠ self → Function.update s.place self sequence.start t = s.place t := by
    intro t ht
    exact Function.update_of_ne ht ..
  refine ⟨hinv.lock, fun t => ?_, fun t => ?_, fun t => ?_⟩
  · by_cases ht : t = self
    · subst ht
      refine .of_idle hout.1 fun kind objectId => ?_
      dsimp only
      rw [Function.update_self]
      exact iff_of_false List.not_mem_nil ((hinv.places t).out hout.1 hout.2)
    · have hat := hinv.places t
      exact ⟨fun hno => by dsimp only; rw [hplace t ht]; exact hat.locks hno,
        fun hc => by dsimp only; rw [hplace t ht]; exact hat.creating hc⟩
  · by_cases ht : t = self
    · subst ht
      dsimp only
      rw [Function.update_self]
      exact hopens
    · dsimp only
      rw [hplace t ht]
      exact hinv.opens t
  · by_cases ht : t = self
    · rw [ht]
      exact fun _ => hthread
    · dsimp only
      rw [hplace t ht]
      exact hinv.threads t

theorem SectionInv.of_reach (h : (lockSections rank).Reach (SectionOk threads) s) : SectionInv threads s := by
  refine h.inv ?_ ?_
  · rintro _ rfl
    refine ⟨.initial, fun t => .of_idle rfl fun kind objectId => iff_of_false List.not_mem_nil ?_, ?_, ?_⟩
    · rintro ⟨o, object, hlive, -⟩
      cases hlive
    · exact fun _ => List.forall_mem_nil _
    · exact fun _ hne => absurd rfl hne
  · rintro s s' (⟨self, sequence⟩ | a) hinv hok hn
    · exact hinv.enter hok hn
    · exact hinv.call hok hn

/-! ## What is left to do -/

/-- The steps of a call that are left. -/
def ComCallPc.weight : ComCallPc → Nat
  | .found .. => 3
  | .waiting .. | .locking _ => 2
  | .filling .. | .leaving | .locked _ => 1

def callWeight (pc : Option ComCallPc) : Nat := (pc.map (·.weight)).getD 0

/-- What is left to a thread: three steps at most for each operation of its section, and those of its call. -/
def Sections.weight (s : Sections rank) (t : ThreadId) : Nat := 3 * (s.place t).ops.length + callWeight (s.com.pc t)

/-- A thread goes on with its call or with its section. -/
def SectionAction.GoesOn : SectionAction rank → Prop
  | .enter .. => False
  | .call a => a = .advance a.self ∨ a.locks ≠ none ∨ a.unlocks ≠ none

theorem CallStep.weight_lt (hstep : CallStep self object object' a before after)
    (hgo : a = .advance self ∨ a.locks ≠ none ∨ a.unlocks ≠ none) :
    callWeight after < callWeight before ∨ (a.locks ≠ none ∨ a.unlocks ≠ none) ∧ callWeight after < callWeight before + 3 := by
  cases hstep with
  | callbacks hidle hno hno' _ =>
    rcases hgo with rfl | hlocks | hunlocks
    · exact absurd rfl hidle
    · exact absurd hno hlocks
    · exact absurd hno' hunlocks
  | unlocks hkind _ _ => exact .inr ⟨.inr (by rw [hkind]; exact Option.some_ne_none _), Nat.zero_lt_succ _⟩
  | writes =>
    rcases hgo with hadvance | hlocks | hunlocks
    · cases hadvance
    · exact absurd rfl hlocks
    · exact absurd rfl hunlocks
  | locks hkind _ => exact .inr ⟨.inl (by rw [hkind]; exact Option.some_ne_none _), Nat.lt_succ_self 2⟩
  | found hopens _ =>
    obtain ⟨hno, hno'⟩ := ComAction.quiet_of_opens hopens
    rcases hgo with rfl | hlocks | hunlocks
    · cases hopens
    · exact absurd hno hlocks
    · exact absurd hno' hunlocks
  | waits | takesToFill | takes => exact .inl (Nat.lt_succ_self _)
  | leaves | fills | left | settles => exact .inl (by simp [callWeight, ComCallPc.weight])

/-- A thread that goes on has less left to do. -/
theorem SectionInv.weight_lt (hinv : SectionInv threads s) (hgo : (SectionAction.call a : SectionAction rank).GoesOn)
    (h : sectionNext s (.call a) = some s') : s'.weight a.self < s.weight a.self := by
  obtain ⟨hcom, -, hop⟩ := sectionNext_call h
  unfold Sections.weight
  cases LockStep.of_next hinv.lock.counted hcom with
  | @touched o object object' hlive hobject hid hon hon' hhandle hcall hkeep hcalls =>
    rcases hcall.weight_lt hgo with hlt | ⟨hlocks, hlt⟩
    · rcases hop with ⟨-, hsame⟩ | ⟨op, -, hfollow⟩
      · rw [hsame]
        omega
      · rw [(Place.follow_spec hfollow).1, List.length_cons]
        omega
    · -- a lock call takes an operation off the section
      have hsome : s.com.op a ≠ none := by
        rcases hlocks with hlocks | hunlocks
        · obtain ⟨kind, hkind⟩ := Option.ne_none_iff_exists'.1 hlocks
          obtain ⟨handle, ha⟩ := ComAction.handle_of_locks hkind
          rw [ComState.op_acquire hkind ha (ComState.idOf_of (hhandle handle ha) hlive)]
          exact Option.some_ne_none _
        · obtain ⟨kind, hkind⟩ := Option.ne_none_iff_exists'.1 hunlocks
          obtain ⟨handle, ha⟩ := ComAction.handle_of_unlocks hkind
          rw [ComState.op_release hkind ha (ComState.idOf_of (hhandle handle ha) hlive)]
          exact Option.some_ne_none _
      rcases hop with ⟨hnone, -⟩ | ⟨op, -, hfollow⟩
      · exact absurd hnone hsome
      · rw [(Place.follow_spec hfollow).1, List.length_cons]
        omega
  | created hopens hnone hobject hlock hsum hkeep hcalls =>
    obtain ⟨hno, hno'⟩ := ComAction.quiet_of_opens hopens
    rcases hgo with hadvance | hlocks | hunlocks
    · rw [hadvance] at hopens
      cases hopens
    · exact absurd hno hlocks
    · exact absurd hno' hunlocks
  | closed ha hlive hx hobject hkeep hcalls =>
    rw [ha] at hgo
    rcases hgo with hadvance | hlocks | hunlocks
    · cases hadvance
    · exact absurd rfl hlocks
    · exact absurd rfl hunlocks

def Sections.work (threads : Finset ThreadId) (s : Sections rank) : Nat := ∑ t ∈ threads, s.weight t

theorem SectionInv.work_lt (hinv : SectionInv threads s) (hok : CallOk threads s a)
    (hgo : (SectionAction.call a : SectionAction rank).GoesOn) (h : sectionNext s (.call a) = some s') :
    s'.work threads < s.work threads := by
  have hself := hinv.weight_lt hgo h
  obtain ⟨hcom, hplace, -⟩ := sectionNext_call h
  have hinv' := hinv.call hok h
  refine Finset.sum_lt_sum (fun t _ => ?_) ⟨a.self, hok.thread, hself⟩
  by_cases ht : t = a.self
  · rw [ht]
    exact hself.le
  · have hkept := (LockStep.of_next hinv.lock.counted hcom).kept hinv.lock hinv'.lock.counted hok.opened hcom ht
    rw [Sections.weight, Sections.weight, hplace t ht, ComState.pc, ComState.pc, hkept.call]

/-! ## All threads finish -/

/-- A thread has something left to do. -/
def Sections.Busy (s : Sections rank) (t : ThreadId) : Prop := (s.place t).ops ≠ [] ∨ s.com.calls.lookup t ≠ none

theorem ComLockInv.mem_threads {s : ComState} (hinv : ComLockInv rank threads s) (h : s.calls.lookup t ≠ none) : t ∈ threads := by
  obtain ⟨c, hc⟩ := Option.ne_none_iff_exists'.1 h
  obtain ⟨o, object, -, hobj, hlive⟩ := hinv.deref hc
  refine hinv.threads o object hlive t (Multiset.mem_add.2 ?_)
  have hhas : ∀ kind, c.pc.has = some kind → t ∈ object.holders := by
    intro kind hpc
    exact HaCommonObject.mem_holders.2 ⟨kind, hinv.has t c kind hc hpc o object hobj hlive⟩
  have hannounced : c.pc.announces = true → t ∈ s.announced o := by
    intro hpc
    exact ComState.mem_announced.2 ⟨c, hc, hpc, hobj⟩
  cases hpc : c.pc with
  | filling => exact .inl (hhas .writer (by rw [hpc]; rfl))
  | locked kind => exact .inl (hhas kind (by rw [hpc]; rfl))
  | found | waiting | leaving | locking => exact .inr (hannounced (by rw [hpc]; rfl))

/-- Of threads that have something left to do, one does not wait. -/
theorem SectionInv.exists_runner (hinv : SectionInv threads s) (hbusy : s.Busy t) : ∃ t', s.Busy t' ∧ ¬s.com.Waits t' := by
  by_cases hw : s.com.Waits t
  · obtain ⟨t', ⟨o, kind, object, hlive, hmem⟩, hno⟩ := hinv.lock.exists_holder hw
    refine ⟨t', ?_, hno⟩
    by_cases hidle : s.com.calls.lookup t' = none
    · left
      intro hops
      exact (hinv.places t').out hidle hops ⟨o, object, hlive, rfl, hmem⟩
    · exact .inr hidle
  · exact ⟨t, hbusy, hw⟩

/-- The call that takes an operation of a section. -/
def callOf (self : ThreadId) (handle : Addr) : Op LockKind CString → ComAction
  | .acquire .writer _ => .writerLock self handle
  | .acquire .reader _ => .readerLock self handle
  | .release .writer _ => .writerUnlock self handle
  | .release .reader _ => .readerUnlock self handle

theorem callOf_op (hid : s.com.idOf handle = some op.lock) : s.com.op (callOf self handle op) = some op := by
  cases op with
  | acquire kind objectId => cases kind <;> exact ComState.op_acquire rfl rfl hid
  | release kind objectId => cases kind <;> exact ComState.op_release rfl rfl hid

theorem callOf_spec (s : ComState) (self : ThreadId) (handle : Addr) (op : Op LockKind CString) :
    (callOf self handle op).self = self ∧ (callOf self handle op).opens = none ∧ (callOf self handle op).writes = none ∧
      (callOf self handle op).closes = none ∧ ((callOf self handle op).locks ≠ none ∨ (callOf self handle op).unlocks ≠ none) ∧
      ((s.handle.lookup handle).isSome → UsesOpen s (callOf self handle op)) ∧ Prepared s (callOf self handle op) ∧
      (s.calls.lookup self = none → Turn s (callOf self handle op)) := by
  cases op with
  | acquire kind objectId => cases kind <;> exact ⟨rfl, rfl, rfl, rfl, .inl nofun, id, trivial, id⟩
  | release kind objectId => cases kind <;> exact ⟨rfl, rfl, rfl, rfl, .inr nofun, id, trivial, id⟩

/-- A thread that has something left to do and does not wait goes on. -/
theorem SectionInv.go_on (hinv : SectionInv threads s) (hcard : threads.card ≤ threadIdRecordNum) (hbusy : s.Busy t)
    (hwaits : ¬s.com.Waits t) : ∃ a s', CallOk threads s a ∧ (SectionAction.call a : SectionAction rank).GoesOn ∧
      sectionNext s (.call a) = some s' := by
  have hrun : ∀ a, a.self = t → CallOk threads s a → Prepared s.com a → Turn s.com a →
      (∀ op, s.com.op a = some op → ∃ p, (s.place a.self).follow op = some p) → ∃ s', sectionNext s (.call a) = some s' := by
    rintro a rfl hok hp hturn hfollow
    have hidle : ∀ self ∈ a.idle, s.com.calls.lookup self = none := by
      cases a with
      | advance => exact nofun
      | create | openObject | close | registerCallback | deregisterCallback | writerLock | readerLock | writerUnlock
      | readerUnlock | write =>
        rintro _ ⟨⟩
        exact hturn
    obtain ⟨com, hcom⟩ := hinv.lock.enabled hcard (hinv.disciplined hok hidle hfollow) hp hturn hwaits
    rw [sectionNext, hcom, Option.bind_some]
    cases hop : s.com.op a with
    | none => exact ⟨_, rfl⟩
    | some op =>
      obtain ⟨p, hp⟩ := hfollow op hop
      dsimp only
      rw [hp]
      exact ⟨_, rfl⟩
  by_cases hcall : s.com.calls.lookup t = none
  · have hops : (s.place t).ops ≠ [] := hbusy.resolve_right fun hne => hne hcall
    obtain ⟨op, ops, hcons⟩ := List.exists_cons_of_ne_nil hops
    obtain ⟨handle, hkey, hid⟩ := hinv.opens t op (by rw [hcons]; exact List.mem_cons_self)
    obtain ⟨hself, hopens, hwrites, hcloses, hlocks, hused, hp, hturn⟩ := callOf_spec s.com t handle op
    have hok : CallOk threads s (callOf t handle op) := by
      refine ⟨hused (Finmap.lookup_isSome.2 (Finmap.mem_keys.1 hkey)), ?_, by rw [hself]; exact hinv.threads t hops, ?_, ?_, ?_⟩
      · rw [FewHandles, hopens]
        exact nofun
      · exact fun hne => absurd hopens hne
      · rw [MayWrite, hwrites]
        exact nofun
      · rw [hcloses]
        exact nofun
    obtain ⟨s', hs'⟩ := hrun _ hself hok hp (hturn hcall) fun op' hop => by
      rw [callOf_op hid] at hop
      cases hop
      rw [hself]
      exact Place.follow_head hcons
    exact ⟨_, s', hok, .inr hlocks, hs'⟩
  · have hok : CallOk threads s (.advance t) := by
      refine ⟨trivial, ?_, hinv.lock.mem_threads hcall, fun hne => absurd rfl hne, ?_, ?_⟩
      · rintro _ ⟨⟩
      · rintro _ ⟨⟩
      · rintro _ ⟨⟩
    obtain ⟨s', hs'⟩ := hrun (.advance t) rfl hok trivial hcall fun op hop => by
      rw [ComState.op_eq_none rfl rfl] at hop
      cases hop
    exact ⟨_, s', hok, .inl rfl, hs'⟩

theorem SectionInv.finish (hcard : threads.card ≤ threadIdRecordNum) (n : Nat) (s : Sections rank) (hinv : SectionInv threads s)
    (hn : s.work threads = n) : ∃ steps s', (lockSections rank).Trace s steps s' ∧
      (∀ p ∈ steps, SectionOk threads p.1 p.2 ∧ p.2.GoesOn) ∧ ∀ t, ¬s'.Busy t := by
  induction n using Nat.strong_induction_on generalizing s with
  | _ n ih =>
    by_cases hbusy : ∃ t, s.Busy t
    · obtain ⟨t, hbusy⟩ := hbusy
      obtain ⟨t', hbusy', hwaits⟩ := hinv.exists_runner hbusy
      obtain ⟨a, s', hok, hgo, hnext⟩ := hinv.go_on hcard hbusy' hwaits
      have hlt := hinv.work_lt hok hgo hnext
      obtain ⟨steps, s'', htrace, hsteps, hend⟩ := ih _ (hn ▸ hlt) s' (hinv.call hok hnext) rfl
      have hnext : (lockSections rank).next s (.call a) = some s' := hnext
      exact ⟨(s, .call a) :: steps, s'', .cons hnext htrace, List.forall_mem_cons.2 ⟨⟨hok, hgo⟩, hsteps⟩, hend⟩
    · push Not at hbusy
      exact ⟨[], s, .nil, List.forall_mem_nil _, hbusy⟩

/-- From every state that threads in lock sections reach, all of them can go on, none into another section, until each is
out of its section and of its call. -/
theorem lock_sections_finish (h : (lockSections rank).Reach (SectionOk threads) s) (hcard : threads.card ≤ threadIdRecordNum) :
    ∃ steps s', (lockSections rank).Trace s steps s' ∧ (∀ p ∈ steps, SectionOk threads p.1 p.2 ∧ p.2.GoesOn) ∧
      ∀ t, ¬s'.Busy t :=
  SectionInv.finish hcard _ s (.of_reach h) rfl

end

/-! ## The sections of the daemon -/

def comIdHb : CString := ⟨"heartbeat".toList, by decide⟩
def comIdSf : CString := ⟨"statefile".toList, by decide⟩
def comIdXapimon : CString := ⟨"xapimon".toList, by decide⟩
def comIdBm : CString := ⟨"bm".toList, by decide⟩

/-- The order in which the daemon takes the locks of its objects. -/
def comRank (objectId : CString) : Nat := [comIdSm, comIdHb, comIdSf, comIdXapimon, comIdBm].idxOf objectId

abbrev DaemonSection := Sequence LockKind CString comRank

/-- heartbeat.c. -/
def heartbeatSections : List DaemonSection :=
  [ -- hb_send, hb_SF_accelerate, hb_SF_cancel_accelerate
    .nested [(.writer, comIdHb)] (by decide),
    -- update_hbdomain
    .nested [(.reader, comIdSm), (.writer, comIdHb)] (by decide),
    -- send_hb, receive_hb
    .nested [(.reader, comIdHb)] (by decide),
    .nested [(.reader, comIdSm), (.writer, comIdHb), (.reader, comIdSf), (.reader, comIdXapimon)] (by decide),
    .nested [(.reader, comIdSm)] (by decide),
    .nested [(.writer, comIdSm), (.writer, comIdHb)] (by decide)]

/-- statefile.c. -/
def statefileSections : List DaemonSection :=
  [ -- sfthread, write_hostspecific, sf_set_pool_state, sf_set_master, sf_set_excluded
    .nested [(.writer, comIdSf)] (by decide),
    -- readsf
    .nested [(.reader, comIdSm), (.writer, comIdSf)] (by decide),
    -- write_hostspecific
    .nested [(.reader, comIdSm), (.reader, comIdHb), (.writer, comIdSf), (.reader, comIdXapimon)] (by decide)]

/-- sm.c. -/
def smSections : List DaemonSection :=
  [ -- sm_initialize, sm_abort
    .nested [(.writer, comIdSm)] (by decide),
    .nested [(.writer, comIdHb)] (by decide),
    .nested [(.writer, comIdSf)] (by decide),
    .nested [(.writer, comIdXapimon)] (by decide),
    -- fault_handler, test_Start_Criteria
    .nested [(.reader, comIdSm)] (by decide),
    -- rendezvous_wait, test_Start_Criteria, wait_until_all_hosts_have_consistent_view
    .nested [(.reader, comIdSm), (.reader, comIdHb), (.reader, comIdSf)] (by decide),
    -- test_Survival_Rule
    .nested [(.writer, comIdSm), (.writer, comIdHb), (.writer, comIdSf)] (by decide),
    -- test_Start_Criteria, am_I_in_new_liveset, update_sfdomain_sub, get_excluded_flag, get_pool_state
    .nested [(.reader, comIdSf)] (by decide),
    -- test_Start_Criteria, surviving_by_SR2, wait_all_hosts_recognize_I_was_down, wait_until_HBSF_state_stable
    .nested [(.reader, comIdHb), (.reader, comIdSf)] (by decide),
    -- join, wait_all_hosts_up_on_heartbeat, wait_until_all_hosts_booted
    .nested [(.reader, comIdHb)] (by decide),
    .nested [(.reader, comIdSm), (.reader, comIdHb)] (by decide),
    .nested [(.writer, comIdSm), (.writer, comIdHb)] (by decide),
    -- process_join_request
    .nested [(.writer, comIdSm), (.reader, comIdHb), (.reader, comIdSf)] (by decide),
    -- start_fh, wait_until_all_hosts_have_consistent_view
    .nested [(.reader, comIdSm), (.writer, comIdHb), (.writer, comIdSf)] (by decide)]

/-- lock_mgr.c, xapi_mon.c, bond_mon.c, sc_func.c, hostweight.c. -/
def otherSections : List DaemonSection :=
  [ -- lock_mgr, script_service_do_query_liveset, script_service_do_disarm_fencing
    .nested [(.writer, comIdSf)] (by decide),
    -- xapimon, xapi_restart, script_service_do_query_liveset
    .nested [(.reader, comIdXapimon)] (by decide),
    .nested [(.writer, comIdXapimon)] (by decide),
    -- bm, script_service_do_query_liveset
    .nested [(.writer, comIdBm)] (by decide),
    .nested [(.reader, comIdBm)] (by decide),
    -- get_hoststate, script_service_do_query_liveset, script_service_do_disarm_fencing, hostweight_set_sm
    .nested [(.reader, comIdSm)] (by decide),
    .nested [(.writer, comIdSm)] (by decide),
    .nested [(.reader, comIdHb)] (by decide),
    .nested [(.writer, comIdHb)] (by decide),
    -- script_service_do_disarm_fencing, script_service_do_set_pool_state, do_set_clear_excluded_sub
    .nested [(.reader, comIdSf)] (by decide)]

def daemonSections : List DaemonSection := heartbeatSections ++ statefileSections ++ smSections ++ otherSections

/-- The section that a thread goes into. -/
def SectionAction.enters {rank : CString → Nat} : SectionAction rank → Option (Sequence LockKind CString rank)
  | .enter _ sequence => some sequence
  | .call _ => none

/-- A thread of the daemon goes into the lock sections of its functions only. -/
def DaemonOk (threads : Finset ThreadId) (s : Sections comRank) (a : SectionAction comRank) : Prop :=
  SectionOk threads s a ∧ ∀ sequence ∈ a.enters, sequence ∈ daemonSections

section

variable {threads : Finset ThreadId} {s : Sections comRank}

/-- Wherever at most sixteen threads of the daemon stand in their lock sections, all of them can go on until each is out of
its section: no choice of steps leads into a deadlock. -/
theorem daemon_never_deadlocks (h : (lockSections comRank).Reach (DaemonOk threads) s) (hcard : threads.card ≤ threadIdRecordNum) :
    ∃ steps s', (lockSections comRank).Trace s steps s' ∧ (∀ p ∈ steps, DaemonOk threads p.1 p.2 ∧ p.2.GoesOn) ∧
      ∀ t, ¬s'.Busy t := by
  obtain ⟨steps, s', htrace, hsteps, hend⟩ := lock_sections_finish (h.mono fun _ _ hok => hok.1) hcard
  refine ⟨steps, s', htrace, fun p hp => ?_, hend⟩
  obtain ⟨hok, hgo⟩ := hsteps p hp
  refine ⟨⟨hok, fun sequence hmem => ?_⟩, hgo⟩
  obtain ⟨s₁, a⟩ := p
  cases a with
  | enter => exact hgo.elim
  | call => cases hmem

/-! ## Two threads of the daemon -/

instance (s : ComState) (objectId : CString) : Decidable (s.Opens objectId) :=
  inferInstanceAs (Decidable (∃ handle ∈ s.handle.keys, s.idOf handle = some objectId))

instance (a : ComAction) : Decidable (CallOk threads s a) :=
  decidable_of_iff (UsesOpen s.com a ∧ FewHandles s.com a ∧ a.self ∈ threads ∧ (a.opens ≠ none → (s.place a.self).ops = []) ∧
    MayWrite s.com a ∧ ∀ handle ∈ a.closes, ∀ t ∈ threads, ∀ op ∈ (s.place t).ops, ∃ other ∈ s.com.handle.keys,
      other ≠ handle ∧ s.com.idOf other = some op.lock)
    ⟨fun h => ⟨h.1, h.2.1, h.2.2.1, h.2.2.2.1, h.2.2.2.2.1, h.2.2.2.2.2⟩,
      fun h => ⟨h.opened, h.few, h.thread, h.outside, h.writes, h.stays⟩⟩

instance : ∀ a, Decidable (SectionOk threads s a)
  | .enter self sequence => inferInstanceAs (Decidable (self ∈ threads ∧ ∀ op ∈ sequence.ops, s.com.Opens op.lock))
  | .call a => inferInstanceAs (Decidable (CallOk threads s a))

instance (a : SectionAction comRank) : Decidable (DaemonOk threads s a) :=
  inferInstanceAs (Decidable (SectionOk threads s a ∧ ∀ sequence ∈ a.enters, sequence ∈ daemonSections))

/-- Thread 1 has the lock of the first object and asks for that of the second, and thread 2 waits for the first. -/
def twoInSections : List (SectionAction comRank) :=
  [.call (.create 1 comIdSm 1 (some [0]) 10 11), .call (.create 1 comIdHb 1 (some [0]) 20 21),
    .enter 1 (.nested [(.writer, comIdSm), (.writer, comIdHb)] (by decide)),
    .enter 2 (.nested [(.reader, comIdSm), (.writer, comIdHb)] (by decide)),
    .call (.writerLock 1 11), .call (.advance 1), .call (.advance 1), .call (.readerLock 2 11), .call (.writerLock 1 21)]

theorem daemon_never_deadlocks_of_two : ∃ s, (lockSections comRank).Reach (DaemonOk {1, 2}) s ∧ s.Busy 1 ∧ s.Busy 2 ∧
    ∃ steps s', (lockSections comRank).Trace s steps s' ∧ (∀ p ∈ steps, DaemonOk {1, 2} p.1 p.2 ∧ p.2.GoesOn) ∧
      ∀ t, ¬s'.Busy t := by
  have hrun : ∃ s, (lockSections comRank).Reach (DaemonOk {1, 2}) s ∧
      ((s.com.calls.lookup 1).isSome && (s.com.calls.lookup 2).isSome) = true :=
    Machine.reach_of_check rfl twoInSections _ (by decide +kernel)
  obtain ⟨s, hs, hp⟩ := hrun
  obtain ⟨h₁, h₂⟩ := Bool.and_eq_true_iff.1 hp
  exact ⟨s, hs, .inr (Option.isSome_iff_ne_none.1 h₁), .inr (Option.isSome_iff_ne_none.1 h₂),
    daemon_never_deadlocks hs (by decide)⟩

end

end Xha
