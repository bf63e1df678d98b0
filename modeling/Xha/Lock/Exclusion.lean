/-
The master lock over a pool: hosts that write their REQUEST and GRANT flags to their own records and read the
others' late. Who holds the lock, and what keeps two hosts from holding it (`lock_is_exclusive`): an owner of higher
priority grants the other in no record that the other may still have or get, and an owner has all grants (`LockInv`).
-/
import Xha.Lib.DelayedRegister
import Xha.Lib.Transition
import Xha.Lock.Manager

namespace Xha

open DelayedRegister

/-! ## The pool -/

/-- The hosts, the lock flags of every record each has written, and the record each host has read last of each. -/
structure LockPool where
  host : Nat → LockHost
  written : Nat → List LmFields
  seen : Nat → Nat → Nat

inductive LockAction
  | lockMgr (i : Nat)
  | requestLock (i : Nat)
  | cancelLock (i : Nat)
  | script (i : Nat) (uuidMaster : MtcUuid)
  | write (i : Nat)
  | read (i j number : Nat) (r : SfHost) (stat : HostStat)
  /-- What else changes in the objects: everything but the lock flags, the access and the liveset. -/
  | objects (i : Nat) (sf : ComDataSf) (sm : ComDataSm)

/-- The flags host `i` has of host `j`. -/
def LockPool.flags (w : LockPool) (i j : Nat) : LmFields := (w.host i).lm.sf.lm j

/-- A step of one configured host. -/
def LockPool.act (c : HaConfig) (w : LockPool) (i : Nat) (f : HaConfig → LockHost → Option LockHost) : Option LockPool :=
  if h : i < c.hostnum then (f (c.at i h) (w.host i)).map fun s => { w with host := Function.update w.host i s } else none

/-- A host that has read the record `r` of host `j`. -/
def LockHost.readRecord (me j : Nat) (r : SfHost) (stat : HostStat) (h : LockHost) : LockHost :=
  { h with lm := { h.lm with sf := updateHost me ⟨⟨0, []⟩, fun _ => r⟩ (fun _ => stat) h.lm.sm h.lm.sf j } }

def lockNext (c : HaConfig) (w : LockPool) : LockAction → Option LockPool
  | .lockMgr i => w.act c i fun c h => some { h with lm := lockMgr c h.lm }
  | .requestLock i => w.act c i fun _ h => if h.pc = .idle then some { h with pc := .cleanup } else none
  | .cancelLock i => w.act c i fun _ h => if h.pc = .idle then some { h with pc := .cancel } else none
  | .script i uuidMaster => w.act c i fun c h => scriptNext c uuidMaster h
  | .write i =>
    if i < c.hostnum then some { w with written := Function.update w.written i (w.written i ++ [w.flags i i]) }
    else none
  | .read i j number r stat =>
    if w.seen i j ≤ number then
      match (w.written j)[number]? with
      | some lm =>
        (w.act c i fun c h => some (h.readRecord c.myIndex j { r with lm := lm } stat)).map fun w =>
          { w with seen := Function.update w.seen i (Function.update (w.seen i) j number) }
      | none => none
    else none
  | .objects i sf sm => w.act c i fun _ h =>
    some { h with lm := { h.lm with
      sf := { sf with lm := h.lm.sf.lm, sfAccess := h.lm.sf.sfAccess }
      sm := { sm with currentLiveset := h.lm.sm.currentLiveset } } }

/-- The daemons have just started, on a State-File without a request or a grant. -/
structure LockPool.Started (liveset : HostMap) (w : LockPool) : Prop where
  idle : ∀ i, (w.host i).pc = .idle ∧ (w.host i).holds = false
  quiet : ∀ i, (w.host i).lm.pendingRequest = false ∧ (w.host i).lm.cancelRequest = false ∧
    (w.host i).lm.firstCleanupDone = false
  live : ∀ i, (w.host i).lm.sm.currentLiveset = liveset
  flags : ∀ i, (w.host i).lm.sf.lm = lmInitializeLmFields i
  written : ∀ i, w.written i = [⟨false, .empty⟩]
  seen : ∀ i j, w.seen i j = 0

/-- The runs of the hosts configured. -/
def lockPool (c : HaConfig) (liveset : HostMap) : Transition.Machine LockPool LockAction where
  init := LockPool.Started liveset
  next := lockNext c

/-! ## What a run has to meet -/

/-- The lock node the next step of the script thread finds. -/
def LockHost.lockNode (c : HaConfig) (h : LockHost) : Option Nat :=
  match h.pc with
  | .check => getLockNode c h.lm
  | .polling woken =>
    if woken && (!h.lm.isRequesting c.myIndex || !h.lm.sf.sfAccess) then none else getLockNode c h.lm
  | _ => none

/-- The host finds itself with REQUEST up and no cancel requested; and while it holds the lock and waits for it
again, no other host without REQUEST. -/
def LockHost.FindsRequesting (c : HaConfig) (h : LockHost) : Prop :=
  (h.lockNode c = some c.myIndex → (h.lm.sf.lm c.myIndex).request = true ∧ h.lm.cancelRequest = false) ∧
  (h.pc ≠ .check → h.holds = true → ∀ index < c.hostnum, h.lockNode c = some index → (h.lm.sf.lm index).request = true)

/-- The cancel is acknowledged, and `lm_cancel_lock` has not returned. -/
def LockHost.Releasing (h : LockHost) : Prop := h.holds = true ∧ h.pc = .cancelling ∧ h.lm.cancelRequest = false

/-- Nothing of an earlier request of host `k` is left at host `i`: host `i` has seen and will see no record of it
with REQUEST up, and neither host `i` nor a record of it that host `k` has seen last or may see grants it. -/
def LockPool.Forgotten (w : LockPool) (i k : Nat) : Prop :=
  (∀ r ∈ (w.written k).drop (w.seen i k), r.request = false) ∧
  ∀ r ∈ ahead (w.written i) (w.seen k i) (w.flags i i), r.grant.isOn k = false

/-- The condition on the steps: a TRUE answer is given on a request of its own, REQUEST goes up when the hosts of
higher priority have forgotten the last one, and no record is written between the acknowledgement of a cancel and the
return of `lm_cancel_lock`. -/
def LockOk (c : HaConfig) (liveset : HostMap) (w : LockPool) : LockAction → Prop
  | .lockMgr k => ∀ h : k < c.hostnum, raisesRequest (c.at k h) (w.host k).lm = true →
      ∀ i < k, liveset.isOn i = true → w.Forgotten i k
  | .script i _ => ∀ h : i < c.hostnum, (w.host i).FindsRequesting (c.at i h)
  | .write i => ¬ (w.host i).Releasing
  | _ => True

/-! ## The invariant -/

/-- The host holds the lock, or is about to answer TRUE. -/
def LockHost.owns (me : Nat) (h : LockHost) : Prop := h.holds = true ∨ h.pc = .found (some me)

/-- What holds of one host. -/
structure HostInv (c : HaConfig) (liveset : HostMap) (w : LockPool) (i : Nat) : Prop where
  live : (w.host i).lm.sm.currentLiveset = liveset
  access : (w.flags i i).request = true → (w.host i).lm.sf.sfAccess = true
  /-- A host that requests grants nobody of lower priority, in memory and in its records. -/
  grant : (w.flags i i).request = true → ∀ k < c.hostnum, i < k → liveset.isOn k = true → (w.flags i i).grant.isOn k = false
  record : ∀ r ∈ w.written i, r.request = true → ∀ k < c.hostnum, i < k → liveset.isOn k = true → r.grant.isOn k = false
  owner : (w.host i).owns i → liveset.isOn i = true ∧ i < c.hostnum
  cancel : (w.host i).owns i → (w.host i).lm.cancelRequest = true → (w.host i).pc = .cancelling
  requesting : (w.host i).owns i → (w.host i).Releasing ∨ (w.flags i i).request = true
  found : (w.host i).holds = true → ∀ index, (w.host i).pc = .found index → index = some i

/-- What holds of a host and one of lower priority. -/
structure PairInv (w : LockPool) (i k : Nat) : Prop where
  /-- The request of `k` and the grant of `i` go up for good, the grant after the request has been seen. -/
  request : (w.flags k k).request = true →
    Rising (fun r : LmFields => r.request = true) (ahead (w.written k) (w.seen i k) (w.flags k k))
  grant : (w.flags k k).request = true →
    Rising (fun r : LmFields => r.grant.isOn k = true) (ahead (w.written i) (w.seen k i) (w.flags i i))
  requested : (w.flags k k).request = true →
    ∀ r ∈ ahead (w.written i) (w.seen k i) (w.flags i i), r.grant.isOn k = true → (w.flags i k).request = true
  /-- An owner keeps the grant. -/
  locked : (w.host k).owns k → ¬ (w.host k).Releasing → (w.flags k i).grant.isOn k = true
  /-- Until `lm_cancel_lock` has returned the others see the request. -/
  releasing : (w.host k).Releasing → (w.flags i i).grant.isOn k = true ∧
    ∀ r ∈ (w.written k).drop (w.seen i k), r.request = true
  released : (w.host i).Releasing → (w.flags k k).request = true →
    ∀ r ∈ (w.written i).drop (w.seen k i), r.grant.isOn k = false
  apart : ¬ ((w.host i).Releasing ∧ (w.host k).Releasing)

structure LockInv (c : HaConfig) (liveset : HostMap) (w : LockPool) : Prop where
  host : ∀ i < c.hostnum, HostInv c liveset w i
  /-- What a host has of another is the record it read last. -/
  held : ∀ i < c.hostnum, ∀ j < c.hostnum, j ≠ i → (w.written j)[w.seen i j]? = some (w.flags i j)
  pair : ∀ i k, i < k → k < c.hostnum → liveset.isOn i = true → liveset.isOn k = true → PairInv w i k

section

variable {c : HaConfig} {liveset : HostMap} {w w' : LockPool} {a i k : Nat}

/-- What host `k` has of host `i` is among the records it may still get. -/
theorem LockInv.flags_mem (h : LockInv c liveset w) (hi : i < c.hostnum) (hk : k < c.hostnum) (hne : i ≠ k) :
    w.flags k i ∈ (w.written i).drop (w.seen k i) := held_mem (h.held k hk i hi hne)

/-- Two hosts never own the lock together: the one of higher priority does not grant the other, and the other has
its grant. -/
theorem LockInv.exclusive (h : LockInv c liveset w) (hik : i < k) (hi : (w.host i).owns i) (hk : (w.host k).owns k)
    (hin : i < c.hostnum) (hkn : k < c.hostnum) : False := by
  obtain ⟨honi, -⟩ := (h.host i hin).owner hi
  obtain ⟨honk, -⟩ := (h.host k hkn).owner hk
  have hpair := h.pair i k hik hkn honi honk
  have hmem := h.flags_mem hin hkn (Nat.ne_of_lt hik)
  rcases (h.host k hkn).requesting hk with hrk | hreqk
  · rcases (h.host i hin).requesting hi with hri | hreqi
    · exact hpair.apart ⟨hri, hrk⟩
    · exact absurd (hpair.releasing hrk).1 (by rw [(h.host i hin).grant hreqi k hkn hik honk]; decide)
  · by_cases hrk : (w.host k).Releasing
    · rcases (h.host i hin).requesting hi with hri | hreqi
      · exact hpair.apart ⟨hri, hrk⟩
      · exact absurd (hpair.releasing hrk).1 (by rw [(h.host i hin).grant hreqi k hkn hik honk]; decide)
    · have hlocked := hpair.locked hk hrk
      rcases (h.host i hin).requesting hi with hri | hreqi
      · exact absurd hlocked (by rw [hpair.released hri hreqk _ hmem]; decide)
      · have hgrant := (hpair.grant hreqk).holds_current (mem_ahead_of_drop hmem) hlocked
        exact absurd hgrant (by rw [(h.host i hin).grant hreqi k hkn hik honk]; decide)

/-- What is said of two hosts is read off their flags, their records, their places in them and their ownership. -/
structure SamePair (w w' : LockPool) (i k : Nat) : Prop where
  flags : w'.flags i i = w.flags i i ∧ w'.flags i k = w.flags i k ∧ w'.flags k k = w.flags k k ∧ w'.flags k i = w.flags k i
  written : w'.written i = w.written i ∧ w'.written k = w.written k
  seen : w'.seen i k = w.seen i k ∧ w'.seen k i = w.seen k i
  owns : (w'.host k).owns k ↔ (w.host k).owns k
  releasing : ((w'.host i).Releasing ↔ (w.host i).Releasing) ∧ ((w'.host k).Releasing ↔ (w.host k).Releasing)

theorem PairInv.congr (h : PairInv w i k) (hs : SamePair w w' i k) : PairInv w' i k := by
  obtain ⟨⟨hii, hik, hkk, hki⟩, ⟨hwi, hwk⟩, ⟨hsi, hsk⟩, ho, hri, hrk⟩ := hs
  constructor
  · rw [hkk, hwk, hsi]; exact h.request
  · rw [hkk, hii, hwi, hsk]; exact h.grant
  · rw [hkk, hii, hik, hwi, hsk]; exact h.requested
  · rw [hki, ho, hrk]; exact h.locked
  · rw [hii, hrk, hwk, hsi]; exact h.releasing
  · rw [hkk, hri, hwi, hsk]; exact h.released
  · rw [hri, hrk]; exact h.apart

/-- Hosts that are left alone are the same. -/
theorem SamePair.of_host (hi : w'.host i = w.host i) (hk : w'.host k = w.host k) (hwi : w'.written i = w.written i)
    (hwk : w'.written k = w.written k) (hsi : w'.seen i k = w.seen i k) (hsk : w'.seen k i = w.seen k i) :
    SamePair w w' i k := by
  have hfi : ∀ j, w'.flags i j = w.flags i j := fun j => by unfold LockPool.flags; rw [hi]
  have hfk : ∀ j, w'.flags k j = w.flags k j := fun j => by unfold LockPool.flags; rw [hk]
  exact ⟨⟨hfi i, hfi k, hfk k, hfk i⟩, ⟨hwi, hwk⟩, ⟨hsi, hsk⟩, by rw [hk], by rw [hi], by rw [hk]⟩

theorem HostInv.congr (h : HostInv c liveset w i) (hi : w'.host i = w.host i) (hw : w'.written i = w.written i) :
    HostInv c liveset w' i := by
  have hf : w'.flags i i = w.flags i i := by unfold LockPool.flags; rw [hi]
  constructor
  · rw [hi]; exact h.live
  · rw [hf, hi]; exact h.access
  · rw [hf]; exact h.grant
  · rw [hw]; exact h.record
  · rw [hi]; exact h.owner
  · rw [hi]; exact h.cancel
  · rw [hf, hi]; exact h.requesting
  · rw [hi]; exact h.found

/-! ## Steps of one host -/

/-- A step of host `a` leaves the other hosts, their records and their places. -/
structure LockPool.StepOf (a : Nat) (w w' : LockPool) : Prop where
  host : ∀ i ≠ a, w'.host i = w.host i
  written : ∀ i ≠ a, w'.written i = w.written i
  seen : ∀ i ≠ a, ∀ k, w'.seen i k = w.seen i k

theorem LockPool.StepOf.flags (hs : w.StepOf a w') (hi : i ≠ a) (j : Nat) : w'.flags i j = w.flags i j := by
  unfold LockPool.flags
  rw [hs.host i hi]

/-- A step of host `a` keeps the invariant if afterwards it holds of `a` itself, of what `a` has of the others and
they of `a`, and of `a` with each host of higher and of lower priority. -/
theorem LockInv.of_step (h : LockInv c liveset w) (hs : w.StepOf a w') (hhost : HostInv c liveset w' a)
    (hheld : ∀ j < c.hostnum, j ≠ a → (w'.written j)[w'.seen a j]? = some (w'.flags a j) ∧
      (w'.written a)[w'.seen j a]? = some (w'.flags j a))
    (hupper : ∀ i < a, liveset.isOn i = true → liveset.isOn a = true → PairInv w' i a)
    (hlower : ∀ k < c.hostnum, a < k → liveset.isOn a = true → liveset.isOn k = true → PairInv w' a k) :
    LockInv c liveset w' := by
  refine ⟨fun i hi => ?_, fun i hi j hj hne => ?_, fun i k hik hk honi honk => ?_⟩
  · by_cases hia : i = a
    · rw [hia]
      exact hhost
    · exact (h.host i hi).congr (hs.host i hia) (hs.written i hia)
  · by_cases hia : i = a
    · subst hia
      exact (hheld j hj hne).1
    · by_cases hja : j = a
      · subst hja
        exact (hheld i hi hia).2
      · rw [hs.written j hja, hs.seen i hia, hs.flags hia]
        exact h.held i hi j hj hne
  · by_cases hka : k = a
    · subst hka
      exact hupper i hik honi honk
    · by_cases hia : i = a
      · subst hia
        exact hlower k hk hik honi honk
      · exact (h.pair i k hik hk honi honk).congr (.of_host (hs.host i hia) (hs.host k hka) (hs.written i hia)
          (hs.written k hka) (hs.seen i hia k) (hs.seen k hka i))

/-- The pool after host `a` has become `s`. -/
def LockPool.setHost (w : LockPool) (a : Nat) (s : LockHost) : LockPool := { w with host := Function.update w.host a s }

theorem LockPool.setHost_self (w : LockPool) (a : Nat) (s : LockHost) : (w.setHost a s).host a = s :=
  Function.update_self ..

theorem LockPool.setHost_of_ne (w : LockPool) (s : LockHost) (hi : i ≠ a) : (w.setHost a s).host i = w.host i :=
  Function.update_of_ne hi ..

theorem LockPool.setHost_flags_self (w : LockPool) (a : Nat) (s : LockHost) (j : Nat) :
    (w.setHost a s).flags a j = s.lm.sf.lm j := by
  rw [LockPool.flags, setHost_self]

theorem LockPool.setHost_flags_of_ne (w : LockPool) (s : LockHost) (hi : i ≠ a) (j : Nat) :
    (w.setHost a s).flags i j = w.flags i j := by
  rw [LockPool.flags, LockPool.flags, setHost_of_ne w s hi]

/-- The rule for a step that reads and writes no record. -/
theorem LockInv.of_setHost (h : LockInv c liveset w) (ha : a < c.hostnum) {s : LockHost}
    (hlm : ∀ j ≠ a, s.lm.sf.lm j = w.flags a j) (hhost : HostInv c liveset (w.setHost a s) a)
    (hupper : ∀ i < a, liveset.isOn i = true → liveset.isOn a = true → PairInv (w.setHost a s) i a)
    (hlower : ∀ k < c.hostnum, a < k → liveset.isOn a = true → liveset.isOn k = true → PairInv (w.setHost a s) a k) :
    LockInv c liveset (w.setHost a s) := by
  refine h.of_step ⟨fun i hi => w.setHost_of_ne s hi, fun _ _ => rfl, fun _ _ _ => rfl⟩ hhost (fun j hj hja => ?_)
    hupper hlower
  rw [w.setHost_flags_self, w.setHost_flags_of_ne s hja, hlm j hja]
  exact ⟨h.held a ha j hj hja, h.held j hj a ha (Ne.symm hja)⟩

/-- What the host knows of the liveset. -/
theorem LockInv.online (h : LockInv c liveset w) (ha : a < c.hostnum) (i : Nat) :
    (w.host a).lm.isOnline i = liveset.isOn i := by
  unfold LmVar.isOnline
  rw [(h.host a ha).live]

/-! ## The steps of the script thread -/

/-- What a step of the script thread does to the ownership of the lock: it becomes an owner only by finding itself,
with REQUEST up, and the release is over. -/
structure OwnStep (c : HaConfig) (h h' : LockHost) : Prop where
  flags : h'.lm.sf.lm = h.lm.sf.lm
  access : h'.lm.sf.sfAccess = h.lm.sf.sfAccess
  sm : h'.lm.sm = h.lm.sm
  releasing : ¬ h'.Releasing
  cancel : h'.owns c.myIndex → h'.lm.cancelRequest = true → h'.pc = .cancelling
  request : h'.owns c.myIndex → (h.lm.sf.lm c.myIndex).request = true
  owns : h'.owns c.myIndex → (h.owns c.myIndex ∧ ¬ h.Releasing) ∨ getLockNode c h.lm = some c.myIndex
  found : h'.holds = true → ∀ index, h'.pc = .found index → index = some c.myIndex

/-- A host finds itself when everybody grants it. -/
theorem LockInv.finds_itself (h : LockInv c liveset w) (ha : a < c.hostnum)
    (hn : getLockNode (c.at a ha) (w.host a).lm = some a) :
    liveset.isOn a = true ∧ ∀ i < c.hostnum, liveset.isOn i = true → (w.flags a i).grant.isOn a = true := by
  obtain ⟨-, hon, hgrants⟩ := getLockNode_spec hn
  refine ⟨?_, fun i hi honi => hgrants i hi ?_⟩
  · rw [← h.online ha]
    exact hon
  · rw [h.online ha]
    exact honi

/-- A step of the script thread of host `a`. -/
theorem LockInv.ownStep (h : LockInv c liveset w) (ha : a < c.hostnum) {s : LockHost}
    (hs : OwnStep (c.at a ha) (w.host a) s) : LockInv c liveset (w.setHost a s) := by
  have hflags : ∀ i j, (w.setHost a s).flags i j = w.flags i j := fun i j => by
    by_cases hi : i = a
    · subst hi
      rw [w.setHost_flags_self, hs.flags]
      rfl
    · exact w.setHost_flags_of_ne s hi j
  -- a step of the script thread never leaves a release behind: only the lock manager lowers a request
  have hrel : ¬ ((w.setHost a s).host a).Releasing := by
    rw [w.setHost_self]
    exact hs.releasing
  refine h.of_setHost ha (fun j _ => congrFun hs.flags j) ?_ (fun i hia honi hona => ?_) fun k hk hak hona honk => ?_
  · have hold := h.host a ha
    constructor
    · rw [w.setHost_self, hs.sm]; exact hold.live
    · rw [hflags, w.setHost_self, hs.access]; exact hold.access
    · rw [hflags]; exact hold.grant
    · exact hold.record
    · rw [w.setHost_self]
      intro ho
      rcases hs.owns ho with ⟨ho, -⟩ | hn
      · exact hold.owner ho
      · exact ⟨(h.finds_itself ha hn).1, ha⟩
    · rw [w.setHost_self]; exact hs.cancel
    · rw [hflags, w.setHost_self]; exact fun ho => .inr (hs.request ho)
    · rw [w.setHost_self]; exact hs.found
  · -- a new owner has everybody's grant
    have hpair := h.pair i a hia ha honi hona
    constructor
    · rw [hflags]; exact hpair.request
    · rw [hflags, hflags]; exact hpair.grant
    · rw [hflags, hflags, hflags]; exact hpair.requested
    · rw [hflags, w.setHost_self]
      intro ho _
      rcases hs.owns ho with ⟨ho, hnot⟩ | hn
      · exact hpair.locked ho hnot
      · exact (h.finds_itself ha hn).2 i (hia.trans ha) honi
    · exact fun hr => absurd hr hrel
    · rw [hflags, w.setHost_of_ne s (Nat.ne_of_lt hia)]; exact hpair.released
    · exact fun hr => hrel hr.2
  · have hpair := h.pair a k hak hk hona honk
    have hka := Nat.ne_of_gt hak
    constructor
    · rw [hflags]; exact hpair.request
    · rw [hflags, hflags]; exact hpair.grant
    · rw [hflags, hflags, hflags]; exact hpair.requested
    · rw [hflags, w.setHost_of_ne s hka]; exact hpair.locked
    · rw [hflags, w.setHost_of_ne s hka]; exact hpair.releasing
    · exact fun hr => absurd hr hrel
    · exact fun hr => hrel hr.1

/-- A holder that waits for the lock again finds nobody else: the host found would both request and grant the
holder, of lower priority, or be granted by the holder. -/
theorem LockInv.holder_finds_itself (h : LockInv c liveset w) (ha : a < c.hostnum) (hown : (w.host a).owns a)
    (hrel : ¬ (w.host a).Releasing) {index : Nat} (hn : getLockNode (c.at a ha) (w.host a).lm = some index)
    (hreq : ((w.host a).lm.sf.lm index).request = true) : index = a := by
  obtain ⟨hlt, hon, hgrants⟩ := getLockNode_spec hn
  have hon : liveset.isOn index = true := by rw [← h.online ha]; exact hon
  obtain ⟨hona, -⟩ := (h.host a ha).owner hown
  have hreqa : (w.flags a a).request = true := ((h.host a ha).requesting hown).resolve_left hrel
  rcases Nat.lt_trichotomy index a with hlower | heq | hupper
  · -- its record has REQUEST up and grants a host of lower priority
    have hlocked := (h.pair index a hlower ha hon hona).locked hown hrel
    have hmem := List.mem_of_mem_drop (h.flags_mem hlt ha (Nat.ne_of_lt hlower))
    exact absurd hlocked (by rw [(h.host index hlt).record _ hmem hreq a ha hlower hona]; decide)
  · exact heq
  · have hgrant := hgrants a ha (by rw [h.online ha]; exact hona)
    exact absurd hgrant (by
      have := (h.host a ha).grant hreqa index hlt hupper hon
      unfold LockPool.flags at this
      rw [this]; decide)

/-- An owner outside `lm_cancel_lock` has REQUEST up and no cancel requested. -/
theorem LockInv.owner_requests (h : LockInv c liveset w) (ha : a < c.hostnum) (hpc : (w.host a).pc ≠ .cancelling)
    (ho : (w.host a).owns a) :
    (w.flags a a).request = true ∧ (w.host a).lm.cancelRequest = false ∧ ¬ (w.host a).Releasing := by
  have hrel : ¬ (w.host a).Releasing := fun hr => hpc hr.2.1
  refine ⟨((h.host a ha).requesting ho).resolve_left hrel, ?_, hrel⟩
  cases hc : (w.host a).lm.cancelRequest
  · rfl
  · exact absurd ((h.host a ha).cancel ho hc) hpc

/-- The script thread goes to another point of the call; if there it has found itself, it owns the lock already or
finds itself now. -/
theorem LockInv.move (h : LockInv c liveset w) (ha : a < c.hostnum) (hok : (w.host a).FindsRequesting (c.at a ha))
    (hpc : (w.host a).pc ≠ .cancelling) {pc' : ScriptPc} (hpc' : pc' ≠ .cancelling)
    (hfound : (w.host a).holds = true → ∀ index, pc' = .found index → index = some a)
    (hself : pc' = .found (some a) → (w.host a).lockNode (c.at a ha) = some a ∧
      getLockNode (c.at a ha) (w.host a).lm = some a) :
    OwnStep (c.at a ha) (w.host a) { w.host a with pc := pc' } := by
  have hcase : LockHost.owns a { w.host a with pc := pc' } →
      (w.host a).owns a ∨ pc' = .found (some a) := Or.imp_left .inl
  refine ⟨rfl, rfl, rfl, fun hr => hpc' hr.2.1, fun ho hc => ?_, fun ho => ?_, fun ho => ?_, hfound⟩
  · have hcancel : (w.host a).lm.cancelRequest = false := by
      rcases hcase ho with ho | hl
      · exact (h.owner_requests ha hpc ho).2.1
      · exact (hok.1 (hself hl).1).2
    exact absurd hc (by show (w.host a).lm.cancelRequest ≠ true; rw [hcancel]; decide)
  · rcases hcase ho with ho | hl
    · exact (h.owner_requests ha hpc ho).1
    · exact (hok.1 (hself hl).1).1
  · rcases hcase ho with ho | hl
    · exact .inl ⟨ho, (h.owner_requests ha hpc ho).2.2⟩
    · exact .inr (hself hl).2

/-- `lm_request_lock` returns TRUE to a host that owns the lock or finds itself. -/
theorem LockInv.answer (h : LockInv c liveset w) (ha : a < c.hostnum) (hok : (w.host a).FindsRequesting (c.at a ha))
    (hpc : (w.host a).pc ≠ .cancelling)
    (hself : (w.host a).owns a ∨ (w.host a).lockNode (c.at a ha) = some a ∧ getLockNode (c.at a ha) (w.host a).lm = some a)
    (uuidMaster : MtcUuid) : OwnStep (c.at a ha) (w.host a) ((w.host a).locked uuidMaster) := by
  have hboth : (w.flags a a).request = true ∧ (w.host a).lm.cancelRequest = false := by
    rcases hself with ho | hl
    · obtain ⟨hreq, hcancel, -⟩ := h.owner_requests ha hpc ho
      exact ⟨hreq, hcancel⟩
    · exact hok.1 hl.1
  refine ⟨rfl, rfl, rfl, fun hr => absurd hr.2.1 nofun, fun _ hc => ?_, fun _ => hboth.1, fun _ => ?_, fun _ _ => nofun⟩
  · exact absurd hc (by show (w.host a).lm.cancelRequest ≠ true; rw [hboth.2]; decide)
  · exact hself.imp (fun ho => ⟨ho, (h.owner_requests ha hpc ho).2.2⟩) And.right

theorem LockInv.script (h : LockInv c liveset w) (ha : a < c.hostnum) (hok : (w.host a).FindsRequesting (c.at a ha))
    {uuidMaster : MtcUuid} {s : LockHost} (hn : scriptNext (c.at a ha) uuidMaster (w.host a) = some s) :
    OwnStep (c.at a ha) (w.host a) s := by
  unfold scriptNext at hn
  cases hpc : (w.host a).pc with
  | idle => rw [hpc] at hn; cases hn
  | cleanup =>
    rw [hpc] at hn
    dsimp only at hn
    split at hn <;> cases hn
    exact h.move ha hok (by rw [hpc]; nofun) nofun (fun _ _ => nofun) nofun
  | check =>
    have hnode : (w.host a).lockNode (c.at a ha) = getLockNode (c.at a ha) (w.host a).lm := by
      rw [LockHost.lockNode, hpc]
    rw [hpc] at hn
    dsimp only at hn
    split at hn
    · rename_i index hfound
      split at hn <;> rename_i hme <;> cases hn
      · have hself : getLockNode (c.at a ha) (w.host a).lm = some a := by rw [hfound, hme]; rfl
        exact h.answer ha hok (by rw [hpc]; nofun) (.inr ⟨hnode.trans hself, hself⟩) uuidMaster
      · exact h.move ha hok (by rw [hpc]; nofun) nofun (fun _ _ => nofun) nofun
    · cases hn
      exact h.move ha hok (by rw [hpc]; nofun) nofun (fun _ _ => nofun) nofun
  | request =>
    rw [hpc] at hn
    cases hn
    have hown : ∀ {v : LmVar}, LockHost.owns a { w.host a with lm := v, pc := .polling false } → (w.host a).owns a :=
      fun ho => ho.elim .inl nofun
    have hneq : (w.host a).pc ≠ .cancelling := by rw [hpc]; nofun
    refine ⟨rfl, rfl, rfl, fun hr => absurd hr.2.1 nofun, fun ho hc => ?_, fun ho => (h.owner_requests ha hneq (hown ho)).1,
      fun ho => .inl ⟨hown ho, (h.owner_requests ha hneq (hown ho)).2.2⟩, fun _ _ => nofun⟩
    exact absurd hc (by
      show (w.host a).lm.cancelRequest ≠ true
      rw [(h.owner_requests ha hneq (hown ho)).2.1]; decide)
  | polling woken =>
    have hneq : (w.host a).pc ≠ .cancelling := by rw [hpc]; nofun
    rw [hpc] at hn
    dsimp only at hn
    split at hn
    · rename_i hwoken
      cases hn
      -- a holder is still requesting, with access
      refine h.move ha hok hneq nofun (fun hh => ?_) nofun
      obtain ⟨hreq, -, -⟩ := h.owner_requests ha hneq (.inl hh)
      have hreq' : ((w.host a).lm.sf.lm a).request = true := hreq
      have hnot : (woken && (!(w.host a).lm.isRequesting a || !(w.host a).lm.sf.sfAccess)) = false := by
        simp [LmVar.isRequesting, hreq', (h.host a ha).access hreq]
      exact absurd hwoken (by
        show (woken && (!(w.host a).lm.isRequesting a || !(w.host a).lm.sf.sfAccess)) ≠ true
        rw [hnot]; decide)
    · rename_i hwait
      have hnode : (w.host a).lockNode (c.at a ha) = getLockNode (c.at a ha) (w.host a).lm := by
        rw [LockHost.lockNode, hpc]
        exact if_neg hwait
      split at hn <;> rename_i hfound <;> cases hn
      · rename_i index
        refine h.move ha hok hneq nofun (fun hh i hi => ?_) fun hi => ?_
        · cases hi
          obtain ⟨hlt, -, -⟩ := getLockNode_spec hfound
          obtain ⟨-, -, hrel⟩ := h.owner_requests ha hneq (.inl hh)
          rw [h.holder_finds_itself ha (.inl hh) hrel hfound
            (hok.2 (by rw [hpc]; nofun) hh index hlt (hnode.trans hfound))]
        · cases hi
          exact ⟨hnode.trans hfound, hfound⟩
      · exact h.move ha hok hneq nofun (fun _ _ => nofun) nofun
  | found index =>
    have hneq : (w.host a).pc ≠ .cancelling := by rw [hpc]; nofun
    rw [hpc] at hn
    dsimp only at hn
    split at hn <;> rename_i hme <;> cases hn
    · exact h.answer ha hok hneq (.inl (.inr (by rw [hpc, hme]; rfl))) uuidMaster
    · -- the host is refused, and does not hold the lock
      have hholds : (w.host a).holds ≠ true := fun hh => hme ((h.host a ha).found hh index hpc)
      have hown : ∀ {v : LmVar} {p : Prop}, LockHost.owns a { w.host a with lm := v, pc := .idle } → p :=
        fun ho => absurd (ho.resolve_right nofun) hholds
      exact ⟨rfl, rfl, rfl, fun hr => absurd hr.2.1 nofun, fun ho => hown ho, fun ho => hown ho, fun ho => hown ho,
        fun hh => absurd hh hholds⟩
  | cancel =>
    have hneq : (w.host a).pc ≠ .cancelling := by rw [hpc]; nofun
    rw [hpc] at hn
    cases hn
    have hown : ∀ {v : LmVar}, LockHost.owns a { w.host a with lm := v, pc := .cancelling } → (w.host a).owns a :=
      fun ho => ho.elim .inl nofun
    exact ⟨rfl, rfl, rfl, fun hr => absurd hr.2.2 nofun, fun _ _ => rfl,
      fun ho => (h.owner_requests ha hneq (hown ho)).1,
      fun ho => .inl ⟨hown ho, (h.owner_requests ha hneq (hown ho)).2.2⟩, fun _ _ => nofun⟩
  | cancelling =>
    rw [hpc] at hn
    dsimp only at hn
    split at hn <;> cases hn
    have hown : ∀ {p : Prop}, LockHost.owns a { w.host a with pc := .idle, holds := false } → p :=
      fun ho => ho.elim nofun nofun
    exact ⟨rfl, rfl, rfl, fun hr => absurd hr.1 nofun, fun ho => hown ho, fun ho => hown ho, fun ho => hown ho, nofun⟩

/-- A call begins. -/
theorem LockInv.call (h : LockInv c liveset w) (ha : a < c.hostnum) (hpc : (w.host a).pc = .idle) {pc' : ScriptPc}
    (hpc' : pc' = .cleanup ∨ pc' = .cancel) : OwnStep (c.at a ha) (w.host a) { w.host a with pc := pc' } := by
  have hneq : (w.host a).pc ≠ .cancelling := by rw [hpc]; nofun
  have hown : LockHost.owns a { w.host a with pc := pc' } → (w.host a).owns a := fun ho =>
    ho.elim .inl (by rcases hpc' with rfl | rfl <;> nofun)
  refine ⟨rfl, rfl, rfl, fun hr => ?_, fun ho hc => ?_, fun ho => (h.owner_requests ha hneq (hown ho)).1,
    fun ho => .inl ⟨hown ho, (h.owner_requests ha hneq (hown ho)).2.2⟩, fun _ _ => ?_⟩
  · exact absurd hr.2.1 (by rcases hpc' with rfl | rfl <;> nofun)
  · exact absurd hc (by
      show (w.host a).lm.cancelRequest ≠ true
      rw [(h.owner_requests ha hneq (hown ho)).2.1]; decide)
  · rcases hpc' with rfl | rfl <;> nofun

/-! ## A turn of the lock manager -/

/-- A turn takes the REQUEST of an owner down only to acknowledge its cancel. -/
theorem LockInv.acknowledged (h : LockInv c liveset w) (ha : a < c.hostnum) {v' : LmVar}
    (hu : LmUpdated (c.at a ha) (w.host a).lm v') (ho : (w.host a).owns a) :
    LockHost.Releasing { w.host a with lm := v' } ∨ (v'.sf.lm a).request = true ∧ ¬ (w.host a).Releasing := by
  rcases (h.host a ha).requesting ho with hrel | hreq
  · exact .inl ⟨hrel.1, hrel.2.1, hu.cancel⟩
  · cases hc : (w.host a).lm.cancelRequest
    · by_cases hrel : (w.host a).Releasing
      · exact .inl ⟨hrel.1, hrel.2.1, hu.cancel⟩
      · refine .inr ⟨?_, hrel⟩
        have hreq : ((w.host a).lm.sf.lm (c.at a ha).myIndex).request = true := hreq
        show (v'.sf.lm (c.at a ha).myIndex).request = true
        rw [hu.request, hc, hreq]
        rfl
    · have hpc := (h.host a ha).cancel ho hc
      exact .inl ⟨ho.resolve_right (by rw [hpc]; nofun), hpc, hu.cancel⟩

/-- A turn that ends with REQUEST up found it up, or raised it. -/
theorem LmUpdated.raised {v v' : LmVar} (hu : LmUpdated c v v') (hacc : v.sf.sfAccess = true)
    (hon : v.isOnline c.myIndex = true)
    (hreq : (v'.sf.lm c.myIndex).request = true) : (v.sf.lm c.myIndex).request = true ∨ raisesRequest c v = true := by
  rw [hu.request, Bool.and_eq_true, Bool.or_eq_true] at hreq
  obtain ⟨hcancel, hr | hr⟩ := hreq
  · exact .inl hr
  · cases hold : (v.sf.lm c.myIndex).request
    · refine .inr ?_
      rw [Bool.and_eq_true] at hr
      unfold raisesRequest
      rw [hacc, hon, hold, hr.1, hr.2, hcancel]
      rfl
    · exact .inl rfl

section

variable {v' : LmVar}

/-- After a turn the host still grants nobody of lower priority while it requests. -/
theorem LockInv.update_host (h : LockInv c liveset w) (ha : a < c.hostnum) (hu : LmUpdated (c.at a ha) (w.host a).lm v')
    (hacc : (w.host a).lm.sf.sfAccess = true) (hona : liveset.isOn a = true) :
    HostInv c liveset (w.setHost a { w.host a with lm := v' }) a := by
  have hold := h.host a ha
  constructor
  · rw [w.setHost_self, hu.sm]; exact hold.live
  · intro _
    rw [w.setHost_self, hu.access]
    exact hacc
  · rw [w.setHost_flags_self]
    intro hreq k hk hak honk
    have hgrant : ((w.host a).lm.sf.lm a).grant.isOn k = false := by
      rcases hu.raised hacc (by rw [h.online ha]; exact hona) hreq with hr | hr
      · exact hold.grant hr k hk hak honk
      · unfold raisesRequest at hr
        simp only [Bool.and_eq_true] at hr
        exact not_grant_of_ready hr.1.2 hk hak (by rw [h.online ha]; exact honk)
    have hspec := hu.grant k hk
    change (v'.sf.lm a).grant.isOn k = (_ && _ && (((w.host a).lm.sf.lm a).grant.isOn k || !(v'.sf.lm a).request ||
      decide (k ≤ a))) at hspec
    rw [hspec, hgrant, hreq]
    simp [hak]
  · exact hold.record
  · rw [w.setHost_self]; exact hold.owner
  · rw [w.setHost_self]
    exact fun _ hc => absurd hc (by show v'.cancelRequest ≠ true; rw [hu.cancel]; decide)
  · rw [w.setHost_flags_self, w.setHost_self]
    exact fun ho => (h.acknowledged ha hu ho).imp_right And.left
  · rw [w.setHost_self]; exact hold.found

/-- A turn and a host of higher priority: REQUEST goes up when the last one is forgotten, and an owner releases. -/
theorem LockInv.update_upper (h : LockInv c liveset w) (ha : a < c.hostnum) (hu : LmUpdated (c.at a ha) (w.host a).lm v')
    (hacc : (w.host a).lm.sf.sfAccess = true)
    (hok : raisesRequest (c.at a ha) (w.host a).lm = true → ∀ i < a, liveset.isOn i = true → w.Forgotten i a)
    (hia : i < a) (honi : liveset.isOn i = true) (hona : liveset.isOn a = true) :
    PairInv (w.setHost a { w.host a with lm := v' }) i a := by
  have hpair := h.pair i a hia ha honi hona
  have hin := hia.trans ha
  have hne := Nat.ne_of_lt hia
  have hmem := h.flags_mem hin ha hne
  have hof := fun j => w.setHost_flags_of_ne { w.host a with lm := v' } hne j
  -- the request was up before, or is raised now, when the hosts above have forgotten the last one
  have hraised : (v'.sf.lm a).request = true → (w.flags a a).request = true ∨ w.Forgotten i a := fun hreq =>
    (hu.raised hacc (by rw [h.online ha]; exact hona) hreq).imp_right fun hr => hok hr i hia honi
  have hrel : (w.host a).Releasing → LockHost.Releasing { w.host a with lm := v' } := fun hr => ⟨hr.1, hr.2.1, hu.cancel⟩
  constructor
  · rw [w.setHost_flags_self]
    intro hreq
    rcases hraised hreq with hr | hforgot
    · exact (hpair.request hr).change fun _ => hreq
    · exact rising_of_none fun r hr => by rw [hforgot.1 r hr]; decide
  · rw [w.setHost_flags_self, hof]
    intro hreq
    rcases hraised hreq with hr | hforgot
    · exact hpair.grant hr
    · exact rising_of_none fun r hr => by rw [hforgot.2 r (mem_ahead_of_drop hr)]; decide
  · rw [w.setHost_flags_self, hof, hof]
    intro hreq r hr hg
    rcases hraised hreq with hreq | hforgot
    · exact hpair.requested hreq r hr hg
    · exact absurd hg (by rw [hforgot.2 r hr]; decide)
  · rw [w.setHost_flags_self, w.setHost_self]
    have hflags : v'.sf.lm i = w.flags a i := hu.others i hne
    rw [hflags]
    exact fun ho hnot => hpair.locked ho fun hr => hnot (hrel hr)
  · rw [hof, w.setHost_self]
    intro hr
    by_cases hold : (w.host a).Releasing
    · exact hpair.releasing hold
    · -- the cancel of an owner is acknowledged: its request has been seen and granted
      have hreq := ((h.host a ha).requesting (.inl hr.1)).resolve_left hold
      have hlocked := hpair.locked (.inl hr.1) hold
      have hgrant := (hpair.grant hreq).holds_current (mem_ahead_of_drop hmem) hlocked
      have hseenreq := hpair.requested hreq _ current_mem_ahead hgrant
      exact ⟨hgrant, fun r hr' => (hpair.request hreq).of_held (h.held i hin a ha (Ne.symm hne)) hseenreq r
        (mem_ahead_of_drop hr')⟩
  · rw [w.setHost_flags_self, w.setHost_of_ne _ hne]
    intro hri hreq
    rcases hraised hreq with hr | hforgot
    · exact hpair.released hri hr
    · exact fun r hr => hforgot.2 r (mem_ahead_of_drop hr)
  · rw [w.setHost_self, w.setHost_of_ne _ hne]
    exact fun hr => h.exclusive hia (.inl hr.1.1) (.inl hr.2.1) hin ha

/-- A turn and a host of lower priority: the host goes on granting whoever it sees requesting. -/
theorem LockInv.update_lower (h : LockInv c liveset w) (ha : a < c.hostnum) (hu : LmUpdated (c.at a ha) (w.host a).lm v')
    (hk : k < c.hostnum) (hak : a < k) (hona : liveset.isOn a = true) (honk : liveset.isOn k = true) :
    PairInv (w.setHost a { w.host a with lm := v' }) a k := by
  have hpair := h.pair a k hak hk hona honk
  have hne := Nat.ne_of_gt hak
  have hof := fun j => w.setHost_flags_of_ne { w.host a with lm := v' } hne j
  have hflags : v'.sf.lm k = w.flags a k := hu.others k hne
  have hspec := hu.grant k hk
  -- a grant outlives the update while the request behind it is seen, and a new one has such a request
  have hkeep : (w.flags a k).request = true → (w.flags a a).grant.isOn k = true → (v'.sf.lm a).grant.isOn k = true := by
    intro hreq hgrant
    change (v'.sf.lm a).grant.isOn k = ((w.flags a k).request && (w.host a).lm.isOnline k &&
      ((w.flags a a).grant.isOn k || _ || _)) at hspec
    rw [hspec, hreq, hgrant, h.online ha, honk]
    rfl
  have hnew : (v'.sf.lm a).grant.isOn k = true → (w.flags a k).request = true := by
    intro hg
    change (v'.sf.lm a).grant.isOn k = ((w.flags a k).request && (w.host a).lm.isOnline k && _) at hspec
    rw [hspec, Bool.and_eq_true, Bool.and_eq_true] at hg
    exact hg.1.1
  constructor
  · rw [hof]; exact hpair.request
  · rw [hof, w.setHost_flags_self]
    intro hreq
    exact (hpair.grant hreq).change fun hg => hkeep (hpair.requested hreq _ current_mem_ahead hg) hg
  · rw [hof, w.setHost_flags_self, w.setHost_flags_self]
    dsimp only
    rw [hflags]
    intro hreq r hr hg
    rcases List.mem_append.1 hr with hr | hr
    · exact hpair.requested hreq r (mem_ahead_of_drop hr) hg
    · rw [List.mem_singleton] at hr
      exact hnew (hr ▸ hg)
  · rw [hof, w.setHost_of_ne _ hne]; exact hpair.locked
  · rw [w.setHost_flags_self, w.setHost_of_ne _ hne]
    intro hr
    obtain ⟨hgrant, hall⟩ := hpair.releasing hr
    exact ⟨hkeep (hall _ (h.flags_mem hk ha hne)) hgrant, hall⟩
  · rw [hof, w.setHost_self]
    intro hri hreq
    by_cases hold : (w.host a).Releasing
    · exact hpair.released hold hreq
    · -- the request of an owner that releases was up, so it granted nobody of lower priority
      intro r hr
      have hreqa := ((h.host a ha).requesting (.inl hri.1)).resolve_left hold
      rw [← Bool.not_eq_true]
      intro hg
      have hgrant := (hpair.grant hreq).holds_current (mem_ahead_of_drop hr) hg
      exact absurd hgrant (by rw [(h.host a ha).grant hreqa k hk hak honk]; decide)
  · rw [w.setHost_self, w.setHost_of_ne _ hne]
    exact fun hr => h.exclusive hak (.inl hr.1.1) (.inl hr.2.1) ha hk

theorem LockInv.update (h : LockInv c liveset w) (ha : a < c.hostnum) (hu : LmUpdated (c.at a ha) (w.host a).lm v')
    (hacc : (w.host a).lm.sf.sfAccess = true) (hona : liveset.isOn a = true)
    (hok : raisesRequest (c.at a ha) (w.host a).lm = true → ∀ i < a, liveset.isOn i = true → w.Forgotten i a) :
    LockInv c liveset (w.setHost a { w.host a with lm := v' }) :=
  h.of_setHost ha (fun j hj => hu.others j hj) (h.update_host ha hu hacc hona)
    (fun _ hia honi hona => h.update_upper ha hu hacc hok hia honi hona)
    fun _ hk hak hona honk => h.update_lower ha hu hk hak hona honk

end

/-! ## Records -/

/-- Host `a` writes its record. -/
theorem LockInv.write (h : LockInv c liveset w) (ha : a < c.hostnum) (hok : ¬ (w.host a).Releasing) :
    LockInv c liveset { w with written := Function.update w.written a (w.written a ++ [w.flags a a]) } := by
  obtain ⟨written, hwritten⟩ : ∃ f, f = Function.update w.written a (w.written a ++ [w.flags a a]) := ⟨_, rfl⟩
  rw [← hwritten]
  have hself : written a = w.written a ++ [w.flags a a] := by rw [hwritten, Function.update_self]
  have hother : ∀ i ≠ a, written i = w.written i := fun i hi => by rw [hwritten, Function.update_of_ne hi]
  refine h.of_step ⟨fun _ _ => rfl, hother, fun _ _ _ => rfl⟩ ?_ (fun j hj hja => ?_) (fun i hia honi hona => ?_)
    fun k hk hak hona honk => ?_
  · have hold := h.host a ha
    refine { hold with record := fun r hr hreq => ?_ }
    dsimp only at hr
    rw [hself] at hr
    rcases List.mem_append.1 hr with hr | hr
    · exact hold.record r hr hreq
    · rw [List.mem_singleton] at hr
      subst hr
      exact hold.grant hreq
  · have hold := h.held j hj a ha (Ne.symm hja)
    dsimp only
    rw [hother j hja, hself, List.getElem?_append_left (List.getElem?_eq_some_iff.1 hold).1]
    exact ⟨h.held a ha j hj hja, hold⟩
  · have hpair := h.pair i a hia ha honi hona
    have hne := Nat.ne_of_lt hia
    refine { hpair with
      request := fun hreq => ?_, grant := fun hreq => ?_, requested := fun hreq => ?_
      releasing := fun hr => absurd hr hok, released := fun hri hreq => ?_ }
    · dsimp only; rw [hself]; exact (hpair.request hreq).write
    · dsimp only; rw [hother i hne]; exact hpair.grant hreq
    · dsimp only; rw [hother i hne]; exact hpair.requested hreq
    · dsimp only; rw [hother i hne]; exact hpair.released hri hreq
  · have hpair := h.pair a k hak hk hona honk
    have hne := Nat.ne_of_gt hak
    refine { hpair with
      request := fun hreq => ?_, grant := fun hreq => ?_, requested := fun hreq r hr => ?_
      releasing := fun hr => ?_, released := fun hri => absurd hri hok }
    · dsimp only; rw [hother k hne]; exact hpair.request hreq
    · dsimp only; rw [hself]; exact (hpair.grant hreq).write
    · dsimp only at hr
      rw [hself] at hr
      exact hpair.requested hreq r (mem_ahead_write hr)
    · dsimp only; rw [hother k hne]; exact hpair.releasing hr

/-- Host `a` takes the record `number` of host `j`, the one it has or a later one. -/
def LockPool.readFrom (w : LockPool) (a j number : Nat) (s : LockHost) : LockPool :=
  { w.setHost a s with seen := Function.update w.seen a (Function.update (w.seen a) j number) }

/-- What a host that reads a record of host `j` keeps, and what it takes from the record. -/
structure ReadStep (w w' : LockPool) (a j number : Nat) (lm : LmFields) : Prop where
  step : w.StepOf a w'
  written : w'.written a = w.written a
  seen : w'.seen a j = number ∧ ∀ k ≠ j, w'.seen a k = w.seen a k
  flags : ∀ k, k ≠ j ∨ k = a → w'.flags a k = w.flags a k
  taken : j ≠ a → w'.flags a j = lm
  owns : (w'.host a).owns a ↔ (w.host a).owns a
  releasing : (w'.host a).Releasing ↔ (w.host a).Releasing

theorem readStep (w : LockPool) (a j number : Nat) (lm : LmFields) (r : SfHost) (stat : HostStat) :
    ReadStep w (w.readFrom a j number ((w.host a).readRecord a j { r with lm := lm } stat)) a j number lm := by
  have hflags : ∀ k, (w.readFrom a j number ((w.host a).readRecord a j { r with lm := lm } stat)).flags a k =
      (if j ≠ a then Function.update (w.flags a) j lm else w.flags a) k := fun k => by
    refine (w.setHost_flags_self a _ k).trans ?_
    show (if j ≠ a then Function.update (w.host a).lm.sf.lm j lm else (w.host a).lm.sf.lm) k = _
    split <;> rfl
  have hself : (w.readFrom a j number ((w.host a).readRecord a j { r with lm := lm } stat)).host a =
      (w.host a).readRecord a j { r with lm := lm } stat := w.setHost_self a _
  constructor
  case step =>
    refine ⟨fun i hi => w.setHost_of_ne _ hi, fun _ _ => rfl, fun i hi k => ?_⟩
    exact congrFun (Function.update_of_ne hi ..) k
  case written => rfl
  case seen =>
    refine ⟨?_, fun k hk => ?_⟩
    · show Function.update w.seen a (Function.update (w.seen a) j number) a j = number
      rw [Function.update_self, Function.update_self]
    · show Function.update w.seen a (Function.update (w.seen a) j number) a k = w.seen a k
      rw [Function.update_self, Function.update_of_ne hk]
  case flags =>
    intro k hk
    rw [hflags]
    split
    · rename_i hja
      rw [Function.update_of_ne (hk.elim id fun hka => by rw [hka]; exact Ne.symm hja)]
    · rfl
  case taken =>
    intro hja
    rw [hflags, if_pos hja, Function.update_self]
  case owns =>
    rw [hself]
    exact Iff.rfl
  case releasing =>
    rw [hself]
    exact Iff.rfl

/-- The lower host reads a record of the higher. -/
theorem LockInv.read_upper (h : LockInv c liveset w) (ha : a < c.hostnum) {number : Nat} (hle : w.seen a i ≤ number)
    {lm : LmFields} (hlm : (w.written i)[number]? = some lm) (hs : ReadStep w w' a i number lm) (hia : i < a)
    (honi : liveset.isOn i = true) (hona : liveset.isOn a = true) : PairInv w' i a := by
  have hpair := h.pair i a hia ha honi hona
  have hne := Nat.ne_of_lt hia
  have hheld := h.held a ha i (hia.trans ha) hne
  have hown := hs.flags a (.inr rfl)
  constructor
  · rw [hown, hs.written, hs.step.seen i hne]; exact hpair.request
  · rw [hown, hs.step.flags hne, hs.step.written i hne, hs.seen.1]
    exact fun hreq => (hpair.grant hreq).read hle
  · rw [hown, hs.step.flags hne, hs.step.flags hne, hs.step.written i hne, hs.seen.1]
    intro hreq r hr
    refine hpair.requested hreq r ?_
    rcases List.mem_append.1 hr with hr | hr
    · exact mem_ahead_of_drop (drop_subset hle hr)
    · exact List.mem_append_right _ hr
  · -- the grant an owner has seen stays up in the later records
    rw [hs.taken hne, hs.owns, hs.releasing]
    intro ho hnot
    have hreq := ((h.host a ha).requesting ho).resolve_left hnot
    exact (hpair.grant hreq).of_held hheld (hpair.locked ho hnot) lm (mem_ahead_of_drop (drop_subset hle (held_mem hlm)))
  · rw [hs.step.flags hne, hs.releasing, hs.written, hs.step.seen i hne]; exact hpair.releasing
  · rw [hown, hs.step.host i hne, hs.step.written i hne, hs.seen.1]
    exact fun hri hreq r hr => hpair.released hri hreq r (drop_subset hle hr)
  · rw [hs.step.host i hne, hs.releasing]; exact hpair.apart

/-- The higher host reads a record of the lower. -/
theorem LockInv.read_lower (h : LockInv c liveset w) (ha : a < c.hostnum) {number : Nat} (hle : w.seen a k ≤ number)
    {lm : LmFields} (hlm : (w.written k)[number]? = some lm) (hs : ReadStep w w' a k number lm) (hk : k < c.hostnum)
    (hak : a < k) (hona : liveset.isOn a = true) (honk : liveset.isOn k = true) : PairInv w' a k := by
  have hpair := h.pair a k hak hk hona honk
  have hne := Nat.ne_of_gt hak
  have hheld := h.held a ha k hk hne
  have hown := hs.flags a (.inr rfl)
  constructor
  · rw [hs.step.flags hne, hs.step.written k hne, hs.seen.1]; exact fun hreq => (hpair.request hreq).read hle
  · rw [hs.step.flags hne, hown, hs.written, hs.step.seen k hne]; exact hpair.grant
  · -- the request it has seen stays up in the later records
    rw [hs.step.flags hne, hown, hs.taken hne, hs.written, hs.step.seen k hne]
    intro hreq r hr hg
    exact (hpair.request hreq).of_held hheld (hpair.requested hreq r hr hg) lm
      (mem_ahead_of_drop (drop_subset hle (held_mem hlm)))
  · rw [hs.step.flags hne, hs.step.host k hne]; exact hpair.locked
  · rw [hown, hs.step.host k hne, hs.step.written k hne, hs.seen.1]
    intro hr
    obtain ⟨hgrant, hall⟩ := hpair.releasing hr
    exact ⟨hgrant, fun r hr => hall r (drop_subset hle hr)⟩
  · rw [hs.step.flags hne, hs.releasing, hs.written, hs.step.seen k hne]; exact hpair.released
  · rw [hs.step.host k hne, hs.releasing]; exact hpair.apart

theorem LockInv.read (h : LockInv c liveset w) (ha : a < c.hostnum) {j number : Nat} (hle : w.seen a j ≤ number)
    {lm : LmFields} (hlm : (w.written j)[number]? = some lm) (r : SfHost) (stat : HostStat) :
    LockInv c liveset (w.readFrom a j number ((w.host a).readRecord a j { r with lm := lm } stat)) := by
  have hs := readStep w a j number lm r stat
  have hown := hs.flags a (.inr rfl)
  refine h.of_step hs.step ?_ (fun k hk hka => ?_) (fun i hia honi hona => ?_) fun k hk hak hona honk => ?_
  · have hold := h.host a ha
    have hself : (w.readFrom a j number ((w.host a).readRecord a j { r with lm := lm } stat)).host a =
        (w.host a).readRecord a j { r with lm := lm } stat := w.setHost_self a _
    constructor
    · rw [hself]; exact hold.live
    · rw [hown, hself]; exact hold.access
    · rw [hown]; exact hold.grant
    · exact hold.record
    · rw [hs.owns]; exact hold.owner
    · rw [hs.owns, hself]; exact hold.cancel
    · rw [hown, hs.owns, hs.releasing]; exact hold.requesting
    · rw [hself]; exact hold.found
  · rw [hs.step.written k hka, hs.written, hs.step.seen k hka, hs.step.flags hka]
    refine ⟨?_, h.held k hk a ha (Ne.symm hka)⟩
    by_cases hkj : k = j
    · subst hkj
      rw [hs.seen.1, hs.taken hka]
      exact hlm
    · rw [hs.seen.2 k hkj, hs.flags k (.inl hkj)]
      exact h.held a ha k hk hka
  · by_cases hij : i = j
    · subst hij
      exact h.read_upper ha hle hlm hs hia honi hona
    · have hne := Nat.ne_of_lt hia
      exact (h.pair i a hia ha honi hona).congr ⟨⟨hs.step.flags hne i, hs.step.flags hne a, hown, hs.flags i (.inl hij)⟩,
        ⟨rfl, rfl⟩, ⟨hs.step.seen i hne a, hs.seen.2 i hij⟩, hs.owns, by rw [hs.step.host i hne], hs.releasing⟩
  · by_cases hkj : k = j
    · subst hkj
      exact h.read_lower ha hle hlm hs hk hak hona honk
    · have hne := Nat.ne_of_gt hak
      exact (h.pair a k hak hk hona honk).congr ⟨⟨hown, hs.flags k (.inl hkj), hs.step.flags hne k, hs.step.flags hne a⟩,
        ⟨rfl, rfl⟩, ⟨hs.seen.2 k hkj, hs.step.seen k hne a⟩, by rw [hs.step.host k hne], hs.releasing,
        by rw [hs.step.host k hne]⟩

/-- The rest of the objects is not read. -/
theorem LockInv.objects (h : LockInv c liveset w) (ha : a < c.hostnum) (sf : ComDataSf) (sm : ComDataSm) :
    LockInv c liveset (w.setHost a { w.host a with lm := { (w.host a).lm with
      sf := { sf with lm := (w.host a).lm.sf.lm, sfAccess := (w.host a).lm.sf.sfAccess }
      sm := { sm with currentLiveset := (w.host a).lm.sm.currentLiveset } } }) := by
  obtain ⟨s, hs⟩ : ∃ s : LockHost, s = { w.host a with lm := { (w.host a).lm with
      sf := { sf with lm := (w.host a).lm.sf.lm, sfAccess := (w.host a).lm.sf.sfAccess }
      sm := { sm with currentLiveset := (w.host a).lm.sm.currentLiveset } } } := ⟨_, rfl⟩
  rw [← hs]
  have hflags : ∀ i j, (w.setHost a s).flags i j = w.flags i j := fun i j => by
    by_cases hi : i = a
    · subst hi
      rw [w.setHost_flags_self, hs]
      rfl
    · exact w.setHost_flags_of_ne s hi j
  have howns : ((w.setHost a s).host a).owns a ↔ (w.host a).owns a := by rw [w.setHost_self, hs]; rfl
  have hrel : ((w.setHost a s).host a).Releasing ↔ (w.host a).Releasing := by rw [w.setHost_self, hs]; rfl
  refine h.of_setHost ha (fun j _ => by rw [hs]; rfl) ?_ (fun i hia honi hona => ?_) fun k hk hak hona honk => ?_
  · have hold := h.host a ha
    constructor
    · rw [w.setHost_self, hs]; exact hold.live
    · rw [hflags, w.setHost_self, hs]; exact hold.access
    · rw [hflags]; exact hold.grant
    · exact hold.record
    · rw [howns]; exact hold.owner
    · rw [howns, w.setHost_self, hs]; exact hold.cancel
    · rw [hflags, howns, hrel]; exact hold.requesting
    · rw [w.setHost_self, hs]; exact hold.found
  · have hne := Nat.ne_of_lt hia
    exact (h.pair i a hia ha honi hona).congr ⟨⟨hflags i i, hflags i a, hflags a a, hflags a i⟩, ⟨rfl, rfl⟩, ⟨rfl, rfl⟩,
      howns, by rw [w.setHost_of_ne s hne], hrel⟩
  · have hne := Nat.ne_of_gt hak
    exact (h.pair a k hak hk hona honk).congr ⟨⟨hflags a a, hflags a k, hflags k k, hflags k a⟩, ⟨rfl, rfl⟩, ⟨rfl, rfl⟩,
      by rw [w.setHost_of_ne s hne], hrel, by rw [w.setHost_of_ne s hne]⟩

/-! ## Runs -/

theorem LockPool.Started.lockInv (h : w.Started liveset) : LockInv c liveset w := by
  have hflags : ∀ i j, w.flags i j = lmInitializeLmFields i j := fun i j => by unfold LockPool.flags; rw [h.flags]
  have hoff : ∀ i, (w.flags i i).request ≠ true := fun i => by
    rw [hflags, lmInitializeLmFields, Function.update_self]; decide
  have howns : ∀ i j, ¬ (w.host i).owns j := fun i j ho => by
    obtain ⟨hpc, hh⟩ := h.idle i
    exact ho.elim (fun ht => by rw [hh] at ht; cases ht) fun hp => by rw [hpc] at hp; cases hp
  have hrel : ∀ i, ¬ (w.host i).Releasing := fun i hr => howns i i (.inl hr.1)
  refine ⟨fun i hi => ?_, fun i hi j hj hne => ?_, fun i k hik hk honi honk => ?_⟩
  · refine ⟨h.live i, fun hr => absurd hr (hoff i), fun hr => absurd hr (hoff i), fun r hr hreq => ?_,
      fun ho => absurd ho (howns i i), fun ho => absurd ho (howns i i), fun ho => absurd ho (howns i i),
      fun hh => absurd (.inl hh) (howns i i)⟩
    rw [h.written i, List.mem_singleton] at hr
    subst hr
    cases hreq
  · rw [h.written j, h.seen i j, hflags, lmInitializeLmFields, Function.update_of_ne hne]
    rfl
  · exact ⟨fun hr => absurd hr (hoff k), fun hr => absurd hr (hoff k), fun hr => absurd hr (hoff k),
      fun ho => absurd ho (howns k k), fun hr => absurd hr (hrel k), fun hr => absurd hr (hrel i), fun hr => hrel i hr.1⟩

theorem LockPool.act_spec {f : HaConfig → LockHost → Option LockHost} (hn : w.act c a f = some w') :
    ∃ (ha : a < c.hostnum) (s : LockHost), f (c.at a ha) (w.host a) = some s ∧ w' = w.setHost a s := by
  unfold LockPool.act at hn
  split at hn
  · rename_i ha
    obtain ⟨s, hs, rfl⟩ := Option.map_eq_some_iff.1 hn
    exact ⟨ha, s, hs, rfl⟩
  · cases hn

/-- Every step keeps the invariant, when it meets the condition. -/
theorem LockInv.next (h : LockInv c liveset w) {action : LockAction} (hok : LockOk c liveset w action)
    (hn : lockNext c w action = some w') : LockInv c liveset w' := by
  cases action with
  | lockMgr a =>
    rw [lockNext] at hn
    obtain ⟨ha, s, hs, rfl⟩ := LockPool.act_spec hn
    cases hs
    unfold lockMgr
    split
    · rw [LockPool.setHost, Function.update_eq_self]; exact h
    · rename_i hrun
      simp only [Bool.or_eq_true, Bool.not_eq_true', not_or, Bool.not_eq_false] at hrun
      have hona : liveset.isOn a = true := by
        have hon : (w.host a).lm.sm.currentLiveset.isOn a = true := hrun.2
        rwa [(h.host a ha).live] at hon
      exact h.update ha (lockMgrUpdate_spec ..) hrun.1 hona (hok ha)
  | requestLock a =>
    rw [lockNext] at hn
    obtain ⟨ha, s, hs, rfl⟩ := LockPool.act_spec hn
    split at hs <;> cases hs
    rename_i hpc
    exact h.ownStep ha (h.call ha hpc (.inl rfl))
  | cancelLock a =>
    rw [lockNext] at hn
    obtain ⟨ha, s, hs, rfl⟩ := LockPool.act_spec hn
    split at hs <;> cases hs
    rename_i hpc
    exact h.ownStep ha (h.call ha hpc (.inr rfl))
  | script a uuidMaster =>
    rw [lockNext] at hn
    obtain ⟨ha, s, hs, rfl⟩ := LockPool.act_spec hn
    exact h.ownStep ha (h.script ha (hok ha) hs)
  | write a =>
    simp only [lockNext] at hn
    split at hn <;> cases hn
    rename_i ha
    exact h.write ha hok
  | read a j number r stat =>
    simp only [lockNext] at hn
    split at hn
    · rename_i hle
      split at hn
      · rename_i lm hlm
        obtain ⟨w1, hw1, rfl⟩ := Option.map_eq_some_iff.1 hn
        obtain ⟨ha, s, hs, rfl⟩ := LockPool.act_spec hw1
        cases hs
        exact h.read ha hle hlm r stat
      · cases hn
    · cases hn
  | objects a sf sm =>
    rw [lockNext] at hn
    obtain ⟨ha, s, hs, rfl⟩ := LockPool.act_spec hn
    cases hs
    exact h.objects ha sf sm

/-- Two different hosts never both hold the lock, in every run whose answers are given on requests, whose requests
follow a forgotten one, and whose releases are over before the next record. -/
theorem lock_is_exclusive (h : (lockPool c liveset).Reach (LockOk c liveset) w) {i j : Nat} (hi : i < c.hostnum)
    (hj : j < c.hostnum) (hij : i ≠ j) (hheld : (w.host i).holds = true) : (w.host j).holds = false := by
  have hinv : LockInv c liveset w := h.inv (fun _ => LockPool.Started.lockInv) fun _ _ _ hw hok hn => hw.next hok hn
  rw [← Bool.not_eq_true]
  intro hheld'
  rcases Nat.lt_or_gt_of_ne hij with hlt | hlt
  · exact hinv.exclusive hlt (.inl hheld) (.inl hheld') hi hj
  · exact hinv.exclusive hlt (.inl hheld') (.inl hheld) hj hi

end

/-! ## Two hosts -/

instance (c : HaConfig) (h : LockHost) : Decidable (h.FindsRequesting c) := by
  unfold LockHost.FindsRequesting; infer_instance

instance (h : LockHost) : Decidable h.Releasing := by unfold LockHost.Releasing; infer_instance

instance (w : LockPool) (i k : Nat) : Decidable (w.Forgotten i k) := by unfold LockPool.Forgotten; infer_instance

instance (c : HaConfig) (liveset : HostMap) (w : LockPool) (action : LockAction) :
    Decidable (LockOk c liveset w action) := by
  cases action <;> unfold LockOk <;> infer_instance

def lockConfig : HaConfig := .pair

def lockStart : LockPool where
  host i :=
    { lm :=
        { pendingRequest := false, cancelRequest := false, firstCleanupDone := false
          sf := { ComDataSf.initial i with sfAccess := true }, sm := { ComDataSm.initial with currentLiveset := 3 } }
      pc := .idle
      holds := false }
  written _ := [⟨false, .empty⟩]
  seen _ _ := 0

theorem lockStart_started : lockStart.Started 3 :=
  ⟨fun _ => ⟨rfl, rfl⟩, fun _ => ⟨rfl, rfl, rfl⟩, fun _ => rfl, fun _ => rfl, fun _ => rfl, fun _ _ => rfl⟩

/-- Host `i` reads the last record of host `j`. -/
def readLastLock (i j : Nat) (w : LockPool) : LockAction :=
  .read i j ((w.written j).length - 1) ⟨0, false, false, ⟨3, 3, 3, 3⟩, ⟨false, .empty⟩, .started, 0⟩ ⟨true, 0, 0, 0⟩

/-- Host `i` writes its record, host `j` reads it and takes a turn. -/
def tell (i j : Nat) : List (LockPool → LockAction) := [fun _ => .write i, readLastLock j i, fun _ => .lockMgr j]

/-- Host `i` calls `lm_request_lock` up to its loop. -/
def ask (i : Nat) : List (LockPool → LockAction) :=
  (fun _ => .requestLock i) :: List.replicate 4 fun _ => .script i []

/-- Host `i` requests the lock and gets it from host `j`. -/
def acquire (i j : Nat) : List (LockPool → LockAction) :=
  ask i ++ [fun _ => .lockMgr i] ++ tell i j ++ tell j i ++ [fun _ => .script i [], fun _ => .script i []]

/-- Host `i` calls `lm_cancel_lock` and returns. -/
def release (i : Nat) : List (LockPool → LockAction) :=
  [fun _ => .cancelLock i, fun _ => .script i [], fun _ => .lockMgr i, fun _ => .script i []]

def firstCleanups : List (LockPool → LockAction) := [fun _ => .lockMgr 0, fun _ => .lockMgr 1]

/-- Host 1 gets the lock and releases it, then host 0 gets it. -/
theorem lock_is_exclusive_handover : ∃ w : LockPool, (w.host 0).holds = true ∧ (w.host 1).holds = false := by
  have hrun : ∃ w, (lockPool lockConfig 3).Reach (LockOk lockConfig 3) w ∧ (w.host 0).holds = true :=
    Transition.Machine.reach_of_played lockStart_started
      (firstCleanups ++ acquire 1 0 ++ release 1 ++ tell 1 0 ++ acquire 0 1) (fun w => (w.host 0).holds) (by decide +kernel)
  obtain ⟨w, hw, hp⟩ := hrun
  exact ⟨w, hp, lock_is_exclusive (i := 0) (j := 1) hw (by decide) (by decide) (by decide) hp⟩

/-- Host 1 releases the lock and asks again before its grants are gone: "I already have the lock". Then host 0 gets
it too. -/
theorem lock_held_twice :
    ∃ w, (lockPool lockConfig 3).Reachable w ∧ (w.host 0).holds = true ∧ (w.host 1).holds = true := by
  have hrun : ∃ w, (lockPool lockConfig 3).Reachable w ∧ ((w.host 0).holds && (w.host 1).holds) = true :=
    Transition.Machine.reach_of_played lockStart_started
      (firstCleanups ++ acquire 1 0 ++ release 1 ++ (ask 1).take 3 ++ tell 1 0 ++ acquire 0 1)
      (fun w => (w.host 0).holds && (w.host 1).holds) (by decide +kernel)
  obtain ⟨w, hw, hp⟩ := hrun
  exact ⟨w, hw, Bool.and_eq_true .. ▸ hp⟩

end Xha
