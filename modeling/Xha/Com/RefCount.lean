/-
Reference counting of the common objects: the hash table holds the live objects, each under its own id, `ref_count`
is the number of open handles and `in_use` that of the locks, and only the close of the last handle frees an object
(`ref_count_sound`). The counts are compared with the handles and the calls in every state (`ComInv`).
-/
import Xha.Com.Moves

namespace Xha

open Transition

/-! ## The counts -/

/-- The number of open handles of an object. -/
def ComState.openHandles (s : ComState) (o : Addr) : Nat := s.handle.entries.countP fun e => e.2.object = o

/-- The ids met on a walk of the whole table. -/
def ComState.listedIds (s : ComState) : List CString :=
  ((List.range hashTableSize).flatMap s.commonObjectHash).filterMap s.key

/-- An object is opened again only while it has fewer than 2 ^ 32 - 1 handles. -/
def FewHandles (s : ComState) (a : ComAction) : Prop :=
  ∀ objectId ∈ a.opens, ∀ o ∈ findCommonObject s objectId, s.openHandles o + 1 < 2 ^ 32

instance (s : ComState) (a : ComAction) : Decidable (FewHandles s a) :=
  inferInstanceAs (Decidable (∀ objectId ∈ a.opens, ∀ o ∈ findCommonObject s objectId, s.openHandles o + 1 < 2 ^ 32))

/-- A hash value is an index of the table. -/
theorem calcHash_lt (objectId : CString) : calcHash objectId < hashTableSize :=
  lt_of_lt_of_le (Nat.mod_lt _ (by decide)) (by decide)

section

variable {s s' : ComState} {self : ThreadId} {o o' handle : Addr} {object object' : HaCommonObject} {a : ComAction}
  {n : Nat} {announced : Multiset ThreadId} {h : HandleInternal}

theorem ComState.openHandles_insert (hh : s'.handle = s.handle.insert handle h) (hfresh : s.handle.lookup handle = none) :
    s'.openHandles o' = s.openHandles o' + if h.object = o' then 1 else 0 := by
  rw [openHandles, hh, Finmap.entries_insert_of_notMem (Finmap.lookup_eq_none.1 hfresh), Multiset.countP_cons]
  rfl

theorem ComState.openHandles_erase (hh : s'.handle = s.handle.erase handle) (hobj : s.objectOf handle = some o) :
    s.openHandles o' = s'.openHandles o' + if o = o' then 1 else 0 := by
  obtain ⟨h, hlookup, rfl⟩ := Option.map_eq_some_iff.1 hobj
  rw [openHandles, FiniteMap.entries_of_lookup hlookup, Multiset.countP_cons, openHandles, hh]

/-- An object has an open handle if and only if its count is positive. -/
theorem ComState.openHandles_pos : 0 < s.openHandles o ↔ ∃ handle, s.objectOf handle = some o := by
  rw [openHandles, Multiset.countP_pos]
  constructor
  · rintro ⟨⟨handle, h⟩, hmem, rfl⟩
    exact ⟨handle, Option.map_eq_some_iff.2 ⟨h, Finmap.mem_lookup_iff.2 hmem, rfl⟩⟩
  · rintro ⟨handle, hobj⟩
    obtain ⟨h, hlookup, rfl⟩ := Option.map_eq_some_iff.1 hobj
    exact ⟨⟨handle, h⟩, Finmap.mem_lookup_iff.1 hlookup, rfl⟩

theorem ComState.objectOf_insert (hh : s'.handle = s.handle.insert handle h) (other : Addr) :
    s'.objectOf other = if other = handle then some h.object else s.objectOf other := by
  unfold ComState.objectOf
  rw [hh]
  split
  · rename_i he
    rw [he, Finmap.lookup_insert, Option.map_some]
  · rename_i hne
    rw [Finmap.lookup_insert_of_ne _ hne]

theorem ComState.objectOf_erase (hh : s'.handle = s.handle.erase handle) (other : Addr) :
    s'.objectOf other = if other = handle then none else s.objectOf other := by
  unfold ComState.objectOf
  rw [hh]
  split
  · rename_i he
    rw [he, Finmap.lookup_erase, Option.map_none]
  · rename_i hne
    rw [Finmap.lookup_erase_ne hne]

/-- The announced locks depend on the handles of the calls only. -/
theorem ComState.announcedBy_congr {m : Finmap fun _ : ThreadId => ComCall}
    (hobj : ∀ t c, m.lookup t = some c → s'.objectOf c.handle = s.objectOf c.handle) :
    m.entries.filterMap (s'.announcedBy o) = m.entries.filterMap (s.announcedBy o) := by
  refine FiniteMap.filterMap_entries_congr fun t c hc => ?_
  rw [ComState.announcedBy, ComState.announcedBy, hobj t c hc]

theorem HaCommonObject.Counts.ref (hc : object.Counts n announced) :
    { object with refCount := object.refCount + 1 }.Counts (n + 1) announced := by
  refine ⟨?_, hc.inUse, hc.table, hc.recorded⟩
  show object.refCount + 1 = _
  rw [hc.refCount, BitVec.ofNat_add]
  rfl

theorem HaCommonObject.Counts.unref (hc : object.Counts (n + 1) announced) (hn : n + 1 < 2 ^ 32) :
    object.unref.Counts n announced := by
  refine ⟨?_, hc.inUse, hc.table, hc.recorded⟩
  have hne : object.refCount ≠ 0 := by
    rw [hc.refCount, ne_eq, ← BitVec.toNat_inj, BitVec.toNat_ofNat, Nat.mod_eq_of_lt hn]
    exact Nat.succ_ne_zero n
  show (if object.refCount ≠ 0 then object.refCount - 1 else object.refCount) = _
  rw [if_pos hne, hc.refCount, BitVec.ofNat_add]
  exact BitVec.add_sub_cancel _ _

theorem newObject_counts (objectId : CString) (size : MtcU32) (buffer : Option (List Byte)) :
    { newObject objectId size buffer with refCount := 1 }.Counts 1 0 := by
  cases buffer <;> exact ⟨rfl, rfl, rfl, rfl⟩

/-! ## The invariant -/

structure ComInv (s : ComState) : Prop where
  table : HashTable.Holds calcHash s.key s.commonObjectHash
  counts : ∀ o object, s.object o = some object → object.Counts (s.openHandles o) (s.announced o)
  /-- The object of an open handle has not been freed. -/
  live : ∀ handle o, s.objectOf handle = some o → s.object o ≠ none
  /-- A call under way uses an open handle. -/
  used : ∀ t c, s.calls.lookup t = some c → s.objectOf c.handle ≠ none
  few : ∀ o, s.openHandles o < 2 ^ 32

theorem ComInv.initial : ComInv .initial := by
  refine ⟨.empty fun _ => rfl, nofun, ?_, ?_, fun _ => Nat.two_pow_pos 32⟩
  · intro handle o hobj
    cases hobj
  · intro t c hc
    cases hc

theorem ComState.key_eq_some {objectId : CString} :
    s.key o = some objectId ↔ ∃ object, s.object o = some object ∧ object.objectId = objectId :=
  Option.map_eq_some_iff

/-- One object is written or freed: its counts are new, and those of the others stay. -/
theorem ComInv.counts_update {x : Option HaCommonObject} (hinv : ComInv s) (hobject : s'.object = Function.update s.object o x)
    (hnew : ∀ object' ∈ x, object'.Counts (s'.openHandles o) (s'.announced o))
    (hold : ∀ o', o' ≠ o → s'.openHandles o' = s.openHandles o' ∧ s'.announced o' = s.announced o') (o' : Addr)
    (object : HaCommonObject) (hlive : s'.object o' = some object) :
    object.Counts (s'.openHandles o') (s'.announced o') := by
  rw [hobject] at hlive
  by_cases ho : o' = o
  · subst ho
    rw [Function.update_self] at hlive
    exact hnew object hlive
  · rw [Function.update_of_ne ho] at hlive
    rw [(hold o' ho).1, (hold o' ho).2]
    exact hinv.counts o' object hlive

/-- One object is written: the handles of the others were there before. -/
theorem ComInv.live_update (hinv : ComInv s) (hobject : s'.object = Function.update s.object o (some object'))
    (hold : ∀ other o', o' ≠ o → s'.objectOf other = some o' → s.objectOf other = some o') (other o' : Addr)
    (hobj : s'.objectOf other = some o') : s'.object o' ≠ none := by
  rw [hobject]
  by_cases ho : o' = o
  · rw [ho, Function.update_self]
    exact Option.some_ne_none _
  · rw [Function.update_of_ne ho]
    exact hinv.live other o' (hold other o' ho hobj)

theorem ComInv.touched (hinv : ComInv s) (ht : Touch s s' self o object object') : ComInv s' := by
  have hopen : s'.openHandles = s.openHandles := by
    funext o'
    rw [ComState.openHandles, ComState.openHandles, ht.handle]
  have hothers : ∀ o', s'.others self o' = s.others self o' := by
    intro o'
    rw [ComState.others, ComState.others, ht.calls]
    exact ComState.announcedBy_congr fun t c _ => by rw [ht.objectOf]
  have hkey : s'.key = s.key := by
    have hset : s'.key = (s.setObject o object').key := by
      funext b
      rw [ComState.key, ht.object_eq]
      rfl
    rw [hset, ComState.key_setObject ht.live ht.objectId]
  have hafter : ∀ c ∈ s'.calls.lookup self, s'.objectOf c.handle = some o := by
    rw [ht.objectOf]
    exact ht.after
  refine ⟨?_, hinv.counts_update ht.object_eq ?_ fun o' ho => ?_, hinv.live_update ht.object_eq fun other o' _ hobj => ?_,
    fun t c hc => ?_, ?_⟩
  · rw [hkey, ht.hash]
    exact hinv.table
  · rintro object'' ⟨⟩
    have hcounts := hinv.counts o object ht.live
    rw [ComState.announced_eq ht.before, if_pos rfl] at hcounts
    rw [hopen, ComState.announced_eq hafter, if_pos rfl, hothers]
    exact ht.counts _ _ ComState.not_mem_others hcounts
  · rw [hopen, ComState.announced_eq hafter, ComState.announced_eq ht.before, if_neg ho, if_neg ho, hothers]
    exact ⟨rfl, rfl⟩
  · rw [ht.objectOf] at hobj
    exact hobj
  · rw [ht.objectOf]
    by_cases ht' : t = self
    · subst ht'
      rw [ht.after c hc]
      exact Option.some_ne_none _
    · rw [← Finmap.lookup_erase_ne ht', ht.calls, Finmap.lookup_erase_ne ht'] at hc
      exact hinv.used t c hc
  · rw [hopen]
    exact hinv.few

/-- A handle that has just been allocated is used by no call. -/
theorem ComInv.objectOf_call (hinv : ComInv s) (hh : s'.handle = s.handle.insert handle h)
    (hfresh : s.handle.lookup handle = none) (t : ThreadId) (c : ComCall) (hc : s.calls.lookup t = some c) :
    s'.objectOf c.handle = s.objectOf c.handle := by
  rw [ComState.objectOf_insert hh, if_neg]
  intro he
  refine hinv.used t c hc ?_
  rw [he, ComState.objectOf, hfresh]
  rfl

/-- The new handle of an object is the only one that was not there before. -/
theorem ComState.objectOf_of_insert (hh : s'.handle = s.handle.insert handle h) {other : Addr} (ho : o' ≠ h.object)
    (hobj : s'.objectOf other = some o') : s.objectOf other = some o' := by
  rw [ComState.objectOf_insert hh] at hobj
  split at hobj
  · cases hobj
    exact absurd rfl ho
  · exact hobj

theorem ComInv.found {objectId : CString} {size : MtcU32} {buffer : Option (List Byte)} (hinv : ComInv s)
    (hfew : FewHandles s a) (ha : a.opens = some objectId) (hidle : s.calls.lookup self = none)
    (hfresh : s.handle.lookup handle = none) (hfind : findCommonObject s objectId = some o)
    (hlive : s.object o = some object)
    (hset : setThreadIdRecord { object with refCount := object.refCount + 1, inUse := object.inUse + 1 } self
      .writerAcquiring = some object') :
    ComInv { s.setObject o object' with
      handle := s.handle.insert handle ⟨o, haCommonObjectMagic⟩
      calls := s.calls.insert self ⟨handle, .found size buffer⟩
      invoked := [] } := by
  generalize hs' : ({ s.setObject o object' with
      handle := s.handle.insert handle ⟨o, haCommonObjectMagic⟩
      calls := s.calls.insert self ⟨handle, .found size buffer⟩
      invoked := [] } : ComState) = s'
  have hh : s'.handle = s.handle.insert handle ⟨o, haCommonObjectMagic⟩ := by rw [← hs']
  have hcalls : s'.calls = s.calls.insert self ⟨handle, .found size buffer⟩ := by rw [← hs']
  have hobject : s'.object = Function.update s.object o (some object') := by rw [← hs']; rfl
  have hkey : s'.key = s.key := by rw [← hs']; exact ComState.key_setObject hlive (setThreadIdRecord_same hset).1
  have hself : s'.objectOf handle = some o := by rw [ComState.objectOf_insert hh, if_pos rfl]
  have hon : ∀ c ∈ s'.calls.lookup self, s'.objectOf c.handle = some o := by
    rw [hcalls, Finmap.lookup_insert]
    rintro c ⟨⟩
    exact hself
  have hannounced : ∀ o', s'.announced o' = (if o' = o then {self} else 0) + s.announced o' := by
    intro o'
    rw [ComState.announced_eq hon, ComState.others, hcalls, Finmap.lookup_insert, FiniteMap.erase_insert,
      FiniteMap.erase_of_lookup_eq_none hidle, pending_announced rfl,
      ComState.announcedBy_congr (hinv.objectOf_call hh hfresh)]
    rfl
  have hopen : ∀ o', s'.openHandles o' = s.openHandles o' + if o = o' then 1 else 0 :=
    fun o' => ComState.openHandles_insert hh hfresh
  refine ⟨?_, hinv.counts_update hobject ?_ fun o' ho => ?_,
    hinv.live_update hobject fun other o' ho => ComState.objectOf_of_insert hh ho, fun t c hc => ?_, fun o' => ?_⟩
  · rw [hkey, ← hs']
    exact hinv.table
  · rintro object'' ⟨⟩
    have hset : setThreadIdRecord { object with refCount := object.refCount + 1, inUse := object.inUse + 1 } self
        LockKind.writer.acquiring = some object' := hset
    rw [hopen, hannounced, if_pos rfl, if_pos rfl]
    exact (hinv.counts o object hlive).ref.announce hset
  · rw [hopen, hannounced, if_neg (Ne.symm ho), if_neg ho, zero_add]
    exact ⟨rfl, rfl⟩
  · by_cases ht : t = self
    · subst ht
      rw [hon c hc]
      exact Option.some_ne_none _
    · rw [hcalls, Finmap.lookup_insert_of_ne _ ht] at hc
      rw [hinv.objectOf_call hh hfresh t c hc]
      exact hinv.used t c hc
  · rw [hopen]
    split
    · rename_i ho
      rw [← ho]
      exact hfew objectId ha o hfind
    · exact hinv.few o'

/-- At an address that is free there is no handle and no announced lock. -/
theorem ComInv.counts_free (hinv : ComInv s) (hfree : s.object o = none) : s.openHandles o = 0 ∧ s.announced o = 0 := by
  have hunused : ∀ other, s.objectOf other ≠ some o := fun other hobj => hinv.live other o hobj hfree
  constructor
  · refine Nat.eq_zero_of_not_pos fun hpos => ?_
    obtain ⟨other, hobj⟩ := ComState.openHandles_pos.1 hpos
    exact hunused other hobj
  · refine Multiset.eq_zero_of_forall_notMem fun t ht => ?_
    obtain ⟨e, -, hby⟩ := (Multiset.mem_filterMap _ _).1 ht
    unfold ComState.announcedBy at hby
    split at hby
    · rename_i hon
      rw [Bool.and_eq_true, decide_eq_true_eq] at hon
      exact hunused _ hon.2
    · cases hby

theorem ComInv.created {objectId : CString} {size : MtcU32} {buffer : Option (List Byte)} (hinv : ComInv s)
    (hfresh : s.handle.lookup handle = none) (hfind : findCommonObject s objectId = none) (hfree : s.object o = none)
    (hnew : object = { newObject objectId size buffer with refCount := 1 }) :
    ComInv { insertCommonObject (s.setObject o object) objectId o with
      handle := s.handle.insert handle ⟨o, haCommonObjectMagic⟩
      invoked := [] } := by
  generalize hs' : ({ insertCommonObject (s.setObject o object) objectId o with
      handle := s.handle.insert handle ⟨o, haCommonObjectMagic⟩
      invoked := [] } : ComState) = s'
  have hh : s'.handle = s.handle.insert handle ⟨o, haCommonObjectMagic⟩ := by rw [← hs']
  have hcalls : s'.calls = s.calls := by rw [← hs']; rfl
  have hobject : s'.object = Function.update s.object o (some object) := by rw [← hs']; rfl
  have hid : object.objectId = objectId := by rw [hnew]; cases buffer <;> rfl
  have hkey : s'.key = Function.update s.key o (some objectId) := by
    funext b
    rw [ComState.key, hobject]
    by_cases hb : b = o
    · rw [hb, Function.update_self, Function.update_self, Option.map_some, hid]
    · rw [Function.update_of_ne hb, Function.update_of_ne hb]
      rfl
  have hnone : s.key o = none := by rw [ComState.key, hfree]; rfl
  have hannounced : ∀ o', s'.announced o' = s.announced o' := by
    intro o'
    rw [ComState.announced, hcalls]
    exact ComState.announcedBy_congr (hinv.objectOf_call hh hfresh)
  obtain ⟨hzero, hquiet⟩ := hinv.counts_free hfree
  have hopen : ∀ o', s'.openHandles o' = s.openHandles o' + if o = o' then 1 else 0 :=
    fun o' => ComState.openHandles_insert hh hfresh
  refine ⟨?_, hinv.counts_update hobject ?_ fun o' ho => ?_,
    hinv.live_update hobject fun other o' ho => ComState.objectOf_of_insert hh ho, fun t c hc => ?_, fun o' => ?_⟩
  · rw [hkey, ← hs']
    exact hinv.table.insert hnone (hinv.table.find_eq_none.1 hfind)
  · rintro object'' ⟨⟩
    rw [hopen, hannounced, if_pos rfl, hzero, hquiet, hnew]
    exact newObject_counts objectId size buffer
  · rw [hopen, hannounced, if_neg (Ne.symm ho)]
    exact ⟨rfl, rfl⟩
  · rw [hcalls] at hc
    rw [hinv.objectOf_call hh hfresh t c hc]
    exact hinv.used t c hc
  · rw [hopen]
    split
    · rename_i ho
      rw [← ho, hzero]
      decide
    · exact hinv.few o'

/-- What a close leaves of the handles: the object has one less, and the calls keep theirs. -/
theorem ComInv.close_handles (hinv : ComInv s) (hopen : UsesOpen s (.close self handle))
    (hobj : s.objectOf handle = some o) (hh : s'.handle = s.handle.erase handle) (hcalls : s'.calls = s.calls) :
    (∀ o', s.openHandles o' = s'.openHandles o' + if o = o' then 1 else 0) ∧ (∀ o', s'.announced o' = s.announced o') ∧
      (∀ t c, s'.calls.lookup t = some c → s'.objectOf c.handle ≠ none) ∧
      (∀ other o', s'.objectOf other = some o' → s.objectOf other = some o') := by
  have hcall : ∀ t c, s.calls.lookup t = some c → s'.objectOf c.handle = s.objectOf c.handle := by
    intro t c hc
    rw [ComState.objectOf_erase hh, if_neg]
    exact hopen.2 ⟨t, c⟩ (Finmap.mem_lookup_iff.1 hc)
  refine ⟨fun o' => ComState.openHandles_erase hh hobj, fun o' => ?_, fun t c hc => ?_, fun other o' ho => ?_⟩
  · rw [ComState.announced, hcalls]
    exact ComState.announcedBy_congr hcall
  · rw [hcalls] at hc
    rw [hcall t c hc]
    exact hinv.used t c hc
  · rw [ComState.objectOf_erase hh] at ho
    split at ho
    · cases ho
    · exact ho

/-- Behind a handle that is closed, the counts of the object go down together. -/
theorem ComInv.unref (hinv : ComInv s) (hopen : UsesOpen s (.close self handle)) (hobj : s.objectOf handle = some o)
    (hlive : s.object o = some object) (hh : s'.handle = s.handle.erase handle) (hcalls : s'.calls = s.calls) :
    object.unref.Counts (s'.openHandles o) (s'.announced o) := by
  obtain ⟨hcount, hannounced, -, -⟩ := hinv.close_handles hopen hobj hh hcalls
  have hcounts := hinv.counts o object hlive
  have hfew := hinv.few o
  have hone := hcount o
  rw [if_pos rfl] at hone
  rw [hone] at hcounts hfew
  rw [hannounced]
  exact hcounts.unref hfew

theorem ComInv.closed (hinv : ComInv s) (hopen : UsesOpen s (.close self handle)) (hobj : s.objectOf handle = some o)
    (hlive : s.object o = some object) :
    ComInv { s.setObject o object.unref with handle := s.handle.erase handle, invoked := [] } := by
  generalize hs' : ({ s.setObject o object.unref with handle := s.handle.erase handle, invoked := [] } : ComState) = s'
  have hh : s'.handle = s.handle.erase handle := by rw [← hs']
  have hcalls : s'.calls = s.calls := by rw [← hs']; rfl
  have hobject : s'.object = Function.update s.object o (some object.unref) := by rw [← hs']; rfl
  have hkey : s'.key = s.key := by rw [← hs']; exact ComState.key_setObject hlive rfl
  obtain ⟨hcount, hannounced, hused, hold⟩ := hinv.close_handles hopen hobj hh hcalls
  refine ⟨?_, hinv.counts_update hobject ?_ fun o' ho => ?_, hinv.live_update hobject fun other o' _ => hold other o',
    hused, fun o' => ?_⟩
  · rw [hkey, ← hs']
    exact hinv.table
  · rintro object' ⟨⟩
    exact hinv.unref hopen hobj hlive hh hcalls
  · rw [hcount, if_neg (Ne.symm ho)]
    exact ⟨rfl, hannounced o'⟩
  · exact lt_of_le_of_lt (Nat.le.intro (hcount o').symm) (hinv.few o')

/-- An object that passes the test of `com_close` has no open handle, no lock and no callback. -/
theorem HaCommonObject.Counts.of_safe (hc : object.Counts n announced) (hn : n < 2 ^ 32)
    (hsafe : objectSafeToDelete object = true) :
    n = 0 ∧ object.rwlock = [] ∧ announced = 0 ∧ object.callbackList = [] := by
  have hfields : (object.refCount = 0 ∧ object.inUse = 0) ∧ object.callbackList = [] := by
    simpa [objectSafeToDelete] using hsafe
  obtain ⟨⟨href, huse⟩, hcallback⟩ := hfields
  have hcard : object.holders.card + announced.card = 0 := by
    rw [← Multiset.card_add, ← hc.recorded, ← hc.inUse_toNat, huse]
    rfl
  refine ⟨?_, ?_, Multiset.card_eq_zero.1 (by omega), hcallback⟩
  · have htoNat := congrArg BitVec.toNat hc.refCount
    rw [href, BitVec.toNat_ofNat, Nat.mod_eq_of_lt hn] at htoNat
    exact htoNat.symm
  · have hlist := Multiset.card_eq_zero.1 (Nat.eq_zero_of_add_eq_zero hcard).1
    rw [HaCommonObject.holders, Multiset.coe_eq_zero, List.map_eq_nil_iff] at hlist
    exact hlist

/-- So a close that frees an object is that of its last handle. -/
theorem ComInv.last_close (hinv : ComInv s) (hopen : UsesOpen s (.close self handle)) (hobj : s.objectOf handle = some o)
    (hlive : s.object o = some object) (hsafe : objectSafeToDelete object.unref = true) :
    s.openHandles o = 1 ∧ object.rwlock = [] ∧ s.announced o = 0 ∧ object.callbackList = [] := by
  generalize hs' : ({ s with handle := s.handle.erase handle } : ComState) = s'
  have hh : s'.handle = s.handle.erase handle := by rw [← hs']
  have hcalls : s'.calls = s.calls := by rw [← hs']
  obtain ⟨hcount, hannounced, -, -⟩ := hinv.close_handles hopen hobj hh hcalls
  have hone := hcount o
  rw [if_pos rfl] at hone
  have hfew : s'.openHandles o < 2 ^ 32 := lt_of_le_of_lt (Nat.le.intro hone.symm) (hinv.few o)
  obtain ⟨hzero, hlock, hquiet, hcallback⟩ := (hinv.unref hopen hobj hlive hh hcalls).of_safe hfew hsafe
  rw [hzero, zero_add] at hone
  exact ⟨hone, hlock, hannounced o ▸ hquiet, hcallback⟩

theorem ComInv.freed (hinv : ComInv s) (hopen : UsesOpen s (.close self handle)) (hobj : s.objectOf handle = some o)
    (hlive : s.object o = some object) (hsafe : objectSafeToDelete object.unref = true) :
    ComInv { s.freeObject o with
      commonObjectHash := HashTable.delete calcHash s.key s.commonObjectHash object.objectId
      handle := s.handle.erase handle
      invoked := [] } := by
  generalize hs' : ({ s.freeObject o with
      commonObjectHash := HashTable.delete calcHash s.key s.commonObjectHash object.objectId
      handle := s.handle.erase handle
      invoked := [] } : ComState) = s'
  have hh : s'.handle = s.handle.erase handle := by rw [← hs']
  have hcalls : s'.calls = s.calls := by rw [← hs']; rfl
  have hobject : s'.object = Function.update s.object o none := by rw [← hs']; rfl
  have hkey : s'.key = Function.update s.key o none := by
    funext b
    rw [ComState.key, hobject]
    by_cases hb : b = o
    · rw [hb, Function.update_self, Function.update_self]
      rfl
    · rw [Function.update_of_ne hb, Function.update_of_ne hb]
      rfl
  have hid : s.key o = some object.objectId := ComState.key_eq_some.2 ⟨object, hlive, rfl⟩
  obtain ⟨hcount, hannounced, hused, hold⟩ := hinv.close_handles hopen hobj hh hcalls
  have hfew : ∀ o', s'.openHandles o' < 2 ^ 32 := fun o' =>
    lt_of_le_of_lt (Nat.le.intro (hcount o').symm) (hinv.few o')
  have hzero : s'.openHandles o = 0 := by
    have hone := hcount o
    rw [(hinv.last_close hopen hobj hlive hsafe).1, if_pos rfl] at hone
    omega
  refine ⟨?_, hinv.counts_update hobject nofun fun o' ho => ?_, fun other o' ho' => ?_, hused, hfew⟩
  · rw [hkey, ← hs']
    exact hinv.table.delete hid
  · rw [hcount, if_neg (Ne.symm ho)]
    exact ⟨rfl, hannounced o'⟩
  · rw [hobject]
    by_cases ho : o' = o
    · -- no handle of the freed object is left
      have hpos : 0 < s'.openHandles o := ComState.openHandles_pos.2 ⟨other, ho ▸ ho'⟩
      rw [hzero] at hpos
      exact absurd hpos (lt_irrefl 0)
    · rw [Function.update_of_ne ho]
      exact hinv.live other o' (hold other o' ho')

theorem ComInv.next (hinv : ComInv s) (hopen : UsesOpen s a) (hfew : FewHandles s a) (hn : comNext s a = some s') :
    ComInv s' := by
  cases ComMove.of_next hn with
  | touched ht _ _ _ => exact hinv.touched ht
  | found ha hidle hfresh hfind hlive hset => exact hinv.found hfew ha hidle hfresh hfind hlive hset
  | created _ hfresh hfind hfree hobject => exact hinv.created hfresh hfind hfree hobject
  | closed hobj hlive _ => exact hinv.closed hopen hobj hlive
  | freed hobj hlive hsafe => exact hinv.freed hopen hobj hlive hsafe

theorem ComInv.of_reach (h : comManager.Reach (fun s a => UsesOpen s a ∧ FewHandles s a) s) : ComInv s :=
  h.inv (fun _ h0 => h0 ▸ .initial) fun _ _ _ hinv hok hn => hinv.next hok.1 hok.2 hn

/-! ## Soundness -/

/-- Between calls no lock is announced. -/
theorem ComState.announced_of_no_call (h : s.calls = ∅) : s.announced o = 0 := by
  rw [ComState.announced, h]
  rfl

/-- A step keeps an object in the table, or frees it, and then it closes the last handle of an object that is not
locked and has no callback. -/
theorem ComInv.next_object (hinv : ComInv s) (hopen : UsesOpen s a) (hn : comNext s a = some s')
    (hlive : s.object o = some object) :
    (∃ object', s'.object o = some object' ∧ object'.objectId = object.objectId) ∨
      s'.object = Function.update s.object o none ∧ ∃ self handle, a = .close self handle ∧ s.objectOf handle = some o ∧
        s.openHandles o = 1 ∧ object.rwlock = [] ∧ s.announced o = 0 ∧ object.callbackList = [] := by
  have hwrite : ∀ {o₁ object₁ object₁'}, s.object o₁ = some object₁ → object₁'.objectId = object₁.objectId →
      ∃ object', Function.update s.object o₁ (some object₁') o = some object' ∧ object'.objectId = object.objectId := by
    intro o₁ object₁ object₁' hlive₁ hid
    by_cases ho : o = o₁
    · subst ho
      rw [hlive] at hlive₁
      cases hlive₁
      exact ⟨object₁', Function.update_self .., hid⟩
    · exact ⟨object, by rw [Function.update_of_ne ho, hlive], rfl⟩
  cases ComMove.of_next hn with
  | touched ht _ _ _ =>
    rw [ht.object_eq]
    exact .inl (hwrite ht.live ht.objectId)
  | found _ _ _ _ hlive₁ hset => exact .inl (hwrite hlive₁ (setThreadIdRecord_same hset).1)
  | @created _ _ _ _ o₁ _ _ _ _ _ hfree _ =>
    have ho : o ≠ o₁ := by
      rintro rfl
      rw [hfree] at hlive
      cases hlive
    exact .inl ⟨object, (Function.update_of_ne ho ..).trans hlive, rfl⟩
  | closed _ hlive₁ _ => exact .inl (hwrite hlive₁ rfl)
  | @freed self o₁ handle object₁ hobj hlive₁ hsafe =>
    by_cases ho : o = o₁
    · subst ho
      rw [hlive] at hlive₁
      cases hlive₁
      exact .inr ⟨rfl, self, handle, rfl, hobj, hinv.last_close hopen hobj hlive hsafe⟩
    · exact .inl ⟨object, (Function.update_of_ne ho ..).trans hlive, rfl⟩

/-- In every state that calls with open handles lead to, no object having 2 ^ 32 of them: the table lists each id
once, its walk finds every object, and it links live objects only; `ref_count` is the number of open handles and
`in_use` that of the locks held and announced; every open handle is that of a live object; and a step keeps an object
in the table, or unlinks and frees it by the close of its last handle when it is not locked and has no callback. -/
theorem ref_count_sound (s : ComState) (h : comManager.Reach (fun s a => UsesOpen s a ∧ FewHandles s a) s) :
    s.listedIds.Nodup ∧
    (∀ i, ∀ o ∈ s.commonObjectHash i, i < hashTableSize ∧ s.object o ≠ none) ∧
    (∀ o object, s.object o = some object → findCommonObject s object.objectId = some o ∧
      object.refCount.toNat = s.openHandles o ∧
      object.inUse.toNat = object.rwlock.length + (s.announced o).card ∧
      (s.calls = ∅ → object.inUse.toNat = object.rwlock.length)) ∧
    (∀ handle o, s.objectOf handle = some o → s.object o ≠ none) ∧
    ∀ a s', UsesOpen s a → FewHandles s a → comNext s a = some s' → ∀ o object, s.object o = some object →
      (∃ object', s'.object o = some object' ∧ findCommonObject s' object.objectId = some o) ∨
      (s'.object o = none ∧ findCommonObject s' object.objectId = none ∧
        ∃ self handle, a = .close self handle ∧ s.objectOf handle = some o ∧ s.openHandles o = 1 ∧
          object.rwlock = [] ∧ s.announced o = 0 ∧ object.callbackList = []) := by
  have hinv := ComInv.of_reach h
  refine ⟨hinv.table.keys_nodup _, fun i o ho => ?_, fun o object hlive => ?_, hinv.live, ?_⟩
  · obtain ⟨objectId, hkey, rfl⟩ := (hinv.table.mem_iff i o).1 ho
    refine ⟨calcHash_lt objectId, fun hfree => ?_⟩
    rw [ComState.key, hfree] at hkey
    cases hkey
  · have hcounts := hinv.counts o object hlive
    have huse : object.inUse.toNat = object.rwlock.length + (s.announced o).card := by
      rw [hcounts.inUse_toNat, hcounts.recorded, Multiset.card_add, HaCommonObject.holders, Multiset.coe_card,
        List.length_map]
    refine ⟨hinv.table.find_eq_some.2 (ComState.key_eq_some.2 ⟨object, hlive, rfl⟩), ?_, huse, fun hquiet => ?_⟩
    · rw [hcounts.refCount, BitVec.toNat_ofNat, Nat.mod_eq_of_lt (hinv.few o)]
    · rw [huse, ComState.announced_of_no_call hquiet]
      rfl
  · intro a s' hopen hfew hn o object hlive
    have hinv' := hinv.next hopen hfew hn
    rcases hinv.next_object hopen hn hlive with ⟨object', hlive', hid⟩ | ⟨hgone, hclose⟩
    · exact .inl ⟨object', hlive', hinv'.table.find_eq_some.2 (ComState.key_eq_some.2 ⟨object', hlive', hid⟩)⟩
    · have hnone : s'.object o = none := by rw [hgone, Function.update_self]
      refine .inr ⟨hnone, hinv'.table.find_eq_none.2 fun o' hkey => ?_, hclose⟩
      -- another object with its id would have been there before
      obtain ⟨other, hlive', hid⟩ := ComState.key_eq_some.1 hkey
      have ho : o' ≠ o := by
        rintro rfl
        rw [hnone] at hlive'
        cases hlive'
      rw [hgone, Function.update_of_ne ho] at hlive'
      exact ho (hinv.table.unique o' o _ (ComState.key_eq_some.2 ⟨other, hlive', hid⟩)
        (ComState.key_eq_some.2 ⟨object, hlive, rfl⟩))

end

/-! ## The width of `ref_count` -/

/-- `COM_ID_SM`. -/
def comIdSm : CString := ⟨"statemanager".toList, by decide⟩

/-- An object that is opened, and opened again with data. -/
def openedTwice : List ComAction :=
  [.openObject 0 comIdSm 1 2, .create 0 comIdSm 2 (some [1, 2]) 0 3, .advance 0, .advance 0, .advance 0]

theorem ref_count_sound_twice :
    ∃ s : ComState, s.listedIds.Nodup ∧ ∃ object, s.object 1 = some object ∧ object.refCount.toNat = s.openHandles 1 ∧
      object.inUse.toNat = 0 ∧ s.openHandles 1 = 2 := by
  have hrun : ∃ s, comManager.Reach (fun s a => UsesOpen s a ∧ FewHandles s a) s ∧
      (decide (s.openHandles 1 = 2) && (s.object 1).any (·.rwlock.isEmpty) && decide (s.announced 1 = 0)) = true :=
    Machine.reach_of_check rfl openedTwice _ (by decide +kernel)
  obtain ⟨s, hs, hcheck⟩ := hrun
  simp only [Bool.and_eq_true, decide_eq_true_eq, Option.any_eq_true, List.isEmpty_iff] at hcheck
  obtain ⟨⟨htwo, object, hlive, hlock⟩, hquiet⟩ := hcheck
  obtain ⟨hlisted, -, hobjects, -⟩ := ref_count_sound s hs
  obtain ⟨-, href, huse, -⟩ := hobjects 1 object hlive
  refine ⟨s, hlisted, object, hlive, href, ?_, htwo⟩
  rw [huse, hlock, hquiet]
  rfl

section

variable (n : Nat) (handles : Finmap fun _ : Addr => HandleInternal) (handle : Addr)

/-- An object that has been opened `n` times without data. -/
def reopened : ComState where
  commonObjectHash := HashTable.insert calcHash (fun _ => []) comIdSm 1
  object := Function.update (fun _ => none) 1 (some { newObject comIdSm 0 none with refCount := BitVec.ofNat 32 n })
  handle := handles
  calls := ∅
  invoked := []

/-- The object while the last call that opens it is under way. -/
def reopeningObject : HaCommonObject :=
  { newObject comIdSm 0 none with
    inUse := 1
    refCount := BitVec.ofNat 32 n
    threadIdRecordTable := ⟨.writerAcquiring, 0⟩ :: List.replicate 15 ⟨.none, 0⟩ }

def reopening (pc : ComCallPc) : ComState where
  commonObjectHash := HashTable.insert calcHash (fun _ => []) comIdSm 1
  object := Function.update (fun _ => none) 1 (some (reopeningObject n))
  handle := handles
  calls := (∅ : Finmap fun _ : ThreadId => ComCall).insert 0 ⟨handle, pc⟩
  invoked := []

variable {handles handle}

theorem reopened_open (hne : handle ≠ 0) (hfresh : handles.lookup handle = none) :
    comNext (reopened n handles) (.openObject 0 comIdSm 0 handle) =
      some (reopening (n + 1) (handles.insert handle ⟨1, haCommonObjectMagic⟩) handle (.found 0 none)) := by
  have hfind : findCommonObject { reopened n handles with invoked := [] } comIdSm = some 1 := by
    simp [findCommonObject, HashTable.find, HashTable.insert, reopened, ComState.key, newObject]
  have hset : setThreadIdRecord { newObject comIdSm 0 none with
      refCount := BitVec.ofNat 32 n + 1
      inUse := (newObject comIdSm 0 none).inUse + 1 } 0 .writerAcquiring =
        some { reopeningObject n with refCount := BitVec.ofNat 32 n + 1 } := rfl
  have hguard : ¬(handle = 0 || (handles.lookup handle).isSome) = true := by simp [hne, hfresh]
  show comCreate { reopened n handles with invoked := [] } 0 comIdSm 0 none 0 handle = _
  unfold comCreate
  rw [hfind]
  simp only [reopened, hguard, Function.update_self, Option.pure_def, Option.bind_eq_bind, Option.bind_some, hset]
  simp only [reopening, reopeningObject, ComState.setObject, Function.update_idem, BitVec.ofNat_add]
  rfl

/-- What the steps of the call under way look at. -/
theorem reopening_enter (hopen : handles.lookup handle = some ⟨1, haCommonObjectMagic⟩) (pc : ComCallPc) :
    (reopening n handles handle pc).calls.lookup 0 = some ⟨handle, pc⟩ ∧
      (reopening n handles handle pc).deref handle = some (1, reopeningObject n) := by
  refine ⟨Finmap.lookup_insert _, ?_⟩
  simp [ComState.deref, ComState.objectOf, reopening, hopen]

theorem reopening_found (hopen : handles.lookup handle = some ⟨1, haCommonObjectMagic⟩) :
    comNext (reopening n handles handle (.found 0 none)) (.advance 0) = some (reopening n handles handle .leaving) := by
  obtain ⟨hcall, hderef⟩ := reopening_enter n hopen (.found 0 none)
  show comAdvance (reopening n handles handle (.found 0 none)) 0 = _
  unfold comAdvance
  simp only [hcall, hderef, Option.bind_eq_bind, Option.bind_some]
  simp only [reopening, Finmap.insert_insert]
  rfl

theorem reopening_leaving (hopen : handles.lookup handle = some ⟨1, haCommonObjectMagic⟩) :
    comNext (reopening n handles handle .leaving) (.advance 0) = some (reopened n handles) := by
  obtain ⟨hcall, hderef⟩ := reopening_enter n hopen .leaving
  have hset : setThreadIdRecord (reopeningObject n) 0 .none =
      some { newObject comIdSm 0 none with inUse := 1, refCount := BitVec.ofNat 32 n } := rfl
  show comAdvance (reopening n handles handle .leaving) 0 = _
  unfold comAdvance
  simp only [hcall, hderef, hset, Option.bind_eq_bind, Option.bind_some]
  simp only [reopening, reopened, ComState.setObject, Function.update_idem, FiniteMap.erase_insert,
    FiniteMap.erase_of_lookup_eq_none (Finmap.lookup_empty 0)]
  rfl

/-- Opening the object over and over, without closing it. -/
theorem reach_reopened : ∃ handles : Finmap fun _ : Addr => HandleInternal,
    comManager.Reach UsesOpen (reopened (n + 1) handles) ∧ (reopened (n + 1) handles).openHandles 1 = n + 1 := by
  induction n with
  | zero =>
    have hn : comNext .initial (.openObject 0 comIdSm 1 2) =
        some (reopened 1 ((∅ : Finmap fun _ : Addr => HandleInternal).insert 2 ⟨1, haCommonObjectMagic⟩)) := rfl
    exact ⟨_, .step (.init rfl) (show UsesOpen _ (.openObject 0 comIdSm 1 2) from trivial) hn, rfl⟩
  | succ n ih =>
    obtain ⟨handles, hreach, hcount⟩ := ih
    obtain ⟨handle, hfresh⟩ := Infinite.exists_notMem_finset (insert 0 handles.keys)
    rw [Finset.mem_insert, not_or, Finmap.mem_keys, ← Finmap.lookup_eq_none] at hfresh
    have hopen : (handles.insert handle ⟨1, haCommonObjectMagic⟩).lookup handle = some ⟨1, haCommonObjectMagic⟩ :=
      Finmap.lookup_insert _
    have hok : ∀ s, UsesOpen s (.openObject 0 comIdSm 0 handle) ∧ UsesOpen s (.advance 0) := fun _ => ⟨trivial, trivial⟩
    have hfound := hreach.step (hok _).1 (reopened_open (n + 1) hfresh.1 hfresh.2)
    have hleaving := hfound.step (hok _).2 (reopening_found (n + 2) hopen)
    refine ⟨_, hleaving.step (hok _).2 (reopening_leaving (n + 2) hopen), ?_⟩
    have hinsert : (reopened (n + 2) (handles.insert handle ⟨1, haCommonObjectMagic⟩)).openHandles 1 =
        (reopened (n + 1) handles).openHandles 1 + if (1 : Addr) = 1 then 1 else 0 :=
      ComState.openHandles_insert (h := ⟨1, haCommonObjectMagic⟩) rfl hfresh.2
    rw [hinsert, hcount, if_pos rfl]

/-- `ref_count` is 32 bits wide: after 2 ^ 32 opens it is back at 0. -/
theorem ref_count_wraps :
    ¬∀ s, comManager.Reach UsesOpen s → ∀ o object, s.object o = some object →
      object.refCount.toNat = s.openHandles o := by
  intro hsound
  obtain ⟨handles, hreach, hcount⟩ := reach_reopened (2 ^ 32 - 1)
  have hcounts := hsound _ hreach 1 { newObject comIdSm 0 none with refCount := BitVec.ofNat 32 (2 ^ 32 - 1 + 1) } rfl
  rw [hcount] at hcounts
  exact absurd hcounts (by decide)

end

end Xha
