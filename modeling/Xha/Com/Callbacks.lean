/-
The callbacks of the common objects: the list of an object names the handle each function was registered with, but
the close of a handle leaves its registrations in place, and a registration is taken back by its function alone. In the
runs where neither matters every callback gets an open handle of its object (`callbacks_of_open_handles`), since every
registration has one.
-/
import Xha.Com.RefCount

namespace Xha

open Transition

/-- The list of callbacks of the object behind a handle. -/
def ComState.callbacksOf (s : ComState) (handle : Addr) : List CallbackListItem :=
  ((s.deref handle).map (·.2.callbackList)).getD []

/-- A handle that is closed has no registration left, and the first registration of a function that is taken back
was made through the handle passed. -/
def CallbacksOwned (s : ComState) : ComAction → Prop
  | .close _ handle => ∀ c ∈ s.callbacksOf handle, c.objectHandle ≠ handle
  | .deregisterCallback _ handle func => ∀ c ∈ (s.callbacksOf handle).find? (·.func = func), c.objectHandle = handle
  | _ => True

instance (s : ComState) : ∀ a, Decidable (CallbacksOwned s a)
  | .close _ handle => inferInstanceAs (Decidable (∀ c ∈ s.callbacksOf handle, c.objectHandle ≠ handle))
  | .deregisterCallback _ handle func =>
    inferInstanceAs (Decidable (∀ c ∈ (s.callbacksOf handle).find? (·.func = func), c.objectHandle = handle))
  | .create .. | .openObject .. | .registerCallback .. | .writerLock .. | .readerLock .. | .writerUnlock ..
  | .readerUnlock .. | .write .. | .advance _ => inferInstanceAs (Decidable True)

section

variable {s s' : ComState} {self : ThreadId} {o handle func : Addr} {object object' : HaCommonObject} {a : ComAction}

theorem ComState.callbacksOf_eq (hobj : s.objectOf handle = some o) (hlive : s.object o = some object) :
    s.callbacksOf handle = object.callbackList := by
  rw [callbacksOf, deref, hobj]
  simp [hlive]

/-! ## Registrations -/

/-- The handles in the list of an object are open, and of that object. -/
def ComState.Registered (s : ComState) : Prop :=
  ∀ o object, s.object o = some object → ∀ c ∈ object.callbackList, s.objectOf c.objectHandle = some o

/-- The only registration an action adds is of the handle it is passed. -/
theorem CallbackMove.mem (h : CallbackMove a object object') {c : CallbackListItem} (hc : c ∈ object'.callbackList) :
    c ∈ object.callbackList ∨ a.handle = some c.objectHandle := by
  cases a with
  | registerCallback t handle func =>
    have h : object'.callbackList = ⟨handle, func⟩ :: object.callbackList := h
    rw [h, List.mem_cons] at hc
    rcases hc with rfl | hc
    · exact .inr rfl
    · exact .inl hc
  | deregisterCallback t handle func =>
    have h : object'.callbackList = object.callbackList.eraseP (·.func = func) := h.2
    rw [h] at hc
    exact .inl (List.mem_of_mem_eraseP hc)
  | _ =>
    have h : object'.callbackList = object.callbackList := h
    rw [h] at hc
    exact .inl hc

/-- One object is written or freed. -/
theorem ComState.Registered.update {x : Option HaCommonObject} (hreg : s.Registered)
    (hobject : s'.object = Function.update s.object o x)
    (hold : ∀ object' ∈ x, ∀ c ∈ object'.callbackList, s'.objectOf c.objectHandle = some o)
    (hkeep : ∀ other o', o' ≠ o → s.objectOf other = some o' → s'.objectOf other = some o') : s'.Registered := by
  intro o' object'' hlive' c hc
  rw [hobject] at hlive'
  by_cases ho : o' = o
  · subst ho
    rw [Function.update_self] at hlive'
    exact hold object'' hlive' c hc
  · rw [Function.update_of_ne ho] at hlive'
    exact hkeep _ o' ho (hreg o' object'' hlive' c hc)

/-- A handle that is allocated takes no other one's place. -/
theorem ComState.objectOf_fresh {h : HandleInternal} (hh : s'.handle = s.handle.insert handle h)
    (hfresh : s.handle.lookup handle = none) {other : Addr} (hobj : s.objectOf other = some o) :
    s'.objectOf other = some o := by
  rw [ComState.objectOf_insert hh, if_neg, hobj]
  rintro rfl
  rw [ComState.objectOf, hfresh] at hobj
  cases hobj

/-- The other handles stay open when one is closed. -/
theorem ComState.objectOf_kept (hh : s'.handle = s.handle.erase handle) {other : Addr} (hne : other ≠ handle)
    (hobj : s.objectOf other = some o) : s'.objectOf other = some o := by
  rw [ComState.objectOf_erase hh, if_neg hne, hobj]

theorem ComState.Registered.next (hreg : s.Registered) (howned : CallbacksOwned s a) (hn : comNext s a = some s') :
    s'.Registered := by
  cases ComMove.of_next hn with
  | touched ht hhandle hcallbacks _ =>
    refine hreg.update ht.object_eq ?_ fun other o _ hobj => ?_
    · rintro object' ⟨⟩ c hc
      rw [ht.objectOf]
      rcases hcallbacks.mem hc with hc | hc
      · exact hreg _ _ ht.live c hc
      · exact hhandle _ hc
    · rw [ht.objectOf]
      exact hobj
  | @found _ _ _ _ _ o handle object object' _ _ hfresh _ hlive hset =>
    refine hreg.update rfl ?_ fun other o' _ hobj => ComState.objectOf_fresh rfl hfresh hobj
    rintro object'' ⟨⟩ c hc
    rw [(setThreadIdRecord_same hset).2] at hc
    exact ComState.objectOf_fresh rfl hfresh (hreg o object hlive c hc)
  | @created _ objectId size buffer o _ object _ hfresh _ _ hobject =>
    refine hreg.update rfl ?_ fun other o' _ hobj => ComState.objectOf_fresh rfl hfresh hobj
    rintro object' ⟨⟩ c hc
    -- a new object has no callback
    have hnil : object.callbackList = [] := by rw [hobject]; cases buffer <;> rfl
    rw [hnil] at hc
    cases hc
  | @closed _ o handle object hobj hlive _ =>
    rw [CallbacksOwned, ComState.callbacksOf_eq hobj hlive] at howned
    refine hreg.update rfl ?_ fun other o' ho hobj' => ComState.objectOf_kept rfl ?_ hobj'
    · rintro object' ⟨⟩ c hc
      exact ComState.objectOf_kept rfl (howned c hc) (hreg o object hlive c hc)
    · rintro rfl
      rw [hobj] at hobj'
      cases hobj'
      exact ho rfl
  | @freed _ o handle object hobj _ _ =>
    refine hreg.update rfl ?_ fun other o' ho hobj' => ComState.objectOf_kept rfl ?_ hobj'
    · rintro object' ⟨⟩
    · rintro rfl
      rw [hobj] at hobj'
      cases hobj'
      exact ho rfl

/-- The callbacks that a step runs are in the list of an object. -/
theorem ComState.Registered.invoked (hreg : s.Registered) (hn : comNext s a = some s') :
    ∀ i ∈ s'.invoked, ∃ o, s'.objectOf i.objectHandle = some o := by
  cases ComMove.of_next hn with
  | touched ht _ _ hinvoked =>
    intro i hi
    obtain ⟨c, hc, hhandle⟩ := hinvoked i hi
    rw [hhandle, ht.objectOf]
    exact ⟨_, hreg _ _ ht.live c hc⟩
  | found | created | closed | freed => exact List.forall_mem_nil _

/-- The first registration of a function, and the list without it. -/
theorem callbackList_first {l : List CallbackListItem} (h : ∃ c ∈ l, c.func = func) :
    ∃ l₁ c l₂, l = l₁ ++ c :: l₂ ∧ c.func = func ∧ l.find? (·.func = func) = some c ∧
      l.eraseP (·.func = func) = l₁ ++ l₂ := by
  obtain ⟨c, hc, hfunc⟩ := h
  obtain ⟨c, l₁, l₂, hbefore, hfunc, rfl, herase⟩ :=
    List.exists_of_eraseP (p := fun c : CallbackListItem => decide (c.func = func)) hc (decide_eq_true hfunc)
  refine ⟨l₁, c, l₂, rfl, of_decide_eq_true hfunc, ?_, herase⟩
  rw [List.find?_append, List.find?_eq_none.2 hbefore, Option.none_or]
  exact List.find?_cons_of_pos (p := fun c : CallbackListItem => decide (c.func = func)) hfunc

/-- One registration of the function made through the handle goes, and those made through other handles stay. -/
def TakesOwn (handle func : Addr) (object object' : HaCommonObject) : Prop :=
  object.callbackList.count ⟨handle, func⟩ = object'.callbackList.count ⟨handle, func⟩ + 1 ∧
    object'.callbackList.filter (·.objectHandle ≠ handle) = object.callbackList.filter (·.objectHandle ≠ handle)

/-- `com_deregister_callback` takes a registration of its handle exactly when the first one of the function is. -/
theorem comDeregisterCallback_own (hn : comNext s (.deregisterCallback self handle func) = some s') :
    ∃ o object object', s.objectOf handle = some o ∧ s.object o = some object ∧
      s'.object = Function.update s.object o (some object') ∧
      (TakesOwn handle func object object' ↔ CallbacksOwned s (.deregisterCallback self handle func)) := by
  cases ComMove.of_next hn with
  | @touched _ _ _ o object object' ht hhandle hcallbacks _ =>
    have hobj := hhandle handle rfl
    refine ⟨o, object, object', hobj, ht.live, ht.object_eq, ?_⟩
    obtain ⟨hfound, herase⟩ := hcallbacks
    obtain ⟨l₁, c, l₂, hl, hfunc, hfind, hl'⟩ := callbackList_first hfound
    rw [CallbacksOwned, ComState.callbacksOf_eq hobj ht.live, hfind, TakesOwn, herase, hl', hl]
    constructor
    · rintro ⟨-, hothers⟩ c' ⟨⟩
      by_contra hne
      have hlength := congrArg List.length hothers
      simp [hne] at hlength
    · intro hown
      have hc : c = ⟨handle, func⟩ := by
        rw [← hown c rfl, ← hfunc]
      subst hc
      constructor
      · rw [List.count_append, List.count_append, List.count_cons_self, Nat.add_assoc]
      · simp
  | found ha | created ha => cases ha

/-! ## The claim -/

/-- The condition of every step: open handles, few of them, and callbacks that are left alone. -/
def CallsOk (s : ComState) (a : ComAction) : Prop := UsesOpen s a ∧ FewHandles s a ∧ CallbacksOwned s a

instance (s : ComState) (a : ComAction) : Decidable (CallsOk s a) :=
  inferInstanceAs (Decidable (UsesOpen s a ∧ FewHandles s a ∧ CallbacksOwned s a))

structure CallbackInv (s : ComState) : Prop where
  com : ComInv s
  registered : s.Registered
  invoked : ∀ i ∈ s.invoked, ∃ o, s.objectOf i.objectHandle = some o

theorem CallbackInv.of_reach (h : comManager.Reach CallsOk s) : CallbackInv s := by
  refine h.inv ?_ fun s s' a hinv hok hn => ?_
  · rintro _ rfl
    refine ⟨.initial, ?_, List.forall_mem_nil _⟩
    intro o object hlive
    cases hlive
  · exact ⟨hinv.com.next hok.1 hok.2.1 hn, hinv.registered.next hok.2.2 hn, hinv.registered.invoked hn⟩

end

/-- In the runs in which a handle is closed only when no registration made through it is left, a function is taken
back only when its first registration was made through the handle, and no object has 2 ^ 32 handles: the callbacks
that a step runs are passed handles that are open, of objects that are there, and a call of
`com_deregister_callback` takes a registration made through its handle and no other. -/
theorem callbacks_of_open_handles (s : ComState) (h : comManager.Reach CallsOk s) :
    (∀ i ∈ s.invoked, ∃ o, s.objectOf i.objectHandle = some o ∧ s.object o ≠ none) ∧
    ∀ self handle func s', comNext s (.deregisterCallback self handle func) = some s' →
      ∃ o object object', s.objectOf handle = some o ∧ s.object o = some object ∧
        s'.object = Function.update s.object o (some object') ∧
        (TakesOwn handle func object object' ↔ CallbacksOwned s (.deregisterCallback self handle func)) := by
  have hinv := CallbackInv.of_reach h
  refine ⟨fun i hi => ?_, fun self handle func s' hn => comDeregisterCallback_own hn⟩
  obtain ⟨o, hobj⟩ := hinv.invoked i hi
  exact ⟨o, hobj, hinv.com.live _ o hobj⟩

/-- Two handles of one object. -/
def twoHandles : List ComAction := [.openObject 0 comIdSm 1 2, .openObject 0 comIdSm 0 3, .advance 0, .advance 0]

/-- The same function is registered with both of them. -/
def registeredTwice : List ComAction := twoHandles ++ [.registerCallback 0 2 100, .registerCallback 0 3 100]

/-- Both registrations are called while both handles are open. -/
theorem callbacks_of_open_handles_twice :
    ∃ s : ComState, s.invoked.length = 2 ∧ ∀ i ∈ s.invoked, ∃ o, s.objectOf i.objectHandle = some o ∧ s.object o ≠ none := by
  have hrun : ∃ s, comManager.Reach CallsOk s ∧ decide (s.invoked.length = 2) = true :=
    Machine.reach_of_check rfl
      (registeredTwice ++ [.writerLock 0 3, .advance 0, .advance 0, .writerUnlock 0 3]) _ (by decide +kernel)
  obtain ⟨s, hs, hlength⟩ := hrun
  exact ⟨s, of_decide_eq_true hlength, (callbacks_of_open_handles s hs).1⟩

/-- A handle is closed with its callback registered, and the next unlock of the object passes it to the callback; and
a function that two handles have registered is taken back through the one that did so first, and the registration of
the other is gone. -/
theorem closed_handle_is_called_back :
    (∃ s s', comManager.Reach UsesOpen s ∧ UsesOpen s (.writerUnlock 0 3) ∧
      comNext s (.writerUnlock 0 3) = some s' ∧ ∃ i ∈ s'.invoked, s'.objectOf i.objectHandle = none) ∧
    ∃ s s' object object', comManager.Reach UsesOpen s ∧ UsesOpen s (.deregisterCallback 0 2 100) ∧
      comNext s (.deregisterCallback 0 2 100) = some s' ∧ s.object 1 = some object ∧ s'.object 1 = some object' ∧
      object.callbackList = [⟨3, 100⟩, ⟨2, 100⟩] ∧ object'.callbackList = [⟨2, 100⟩] := by
  constructor
  · have hrun : ∃ s, comManager.Reach UsesOpen s ∧ (decide (UsesOpen s (.writerUnlock 0 3)) &&
        (comNext s (.writerUnlock 0 3)).any fun s' => s'.invoked.any fun i => s'.objectOf i.objectHandle = none) = true :=
      Machine.reach_of_check rfl
        (twoHandles ++ [.registerCallback 0 2 100, .close 0 2, .writerLock 0 3, .advance 0, .advance 0]) _
        (by decide +kernel)
    obtain ⟨s, hs, hcheck⟩ := hrun
    simp only [Bool.and_eq_true, decide_eq_true_eq, Option.any_eq_true, List.any_eq_true] at hcheck
    obtain ⟨hopen, s', hn, i, hi, hclosed⟩ := hcheck
    exact ⟨s, s', hs, hopen, hn, i, hi, hclosed⟩
  · have hrun : ∃ s, comManager.Reach UsesOpen s ∧ (decide (UsesOpen s (.deregisterCallback 0 2 100)) &&
        (s.object 1).any (·.callbackList = [⟨3, 100⟩, ⟨2, 100⟩]) &&
        (comNext s (.deregisterCallback 0 2 100)).any fun s' => (s'.object 1).any (·.callbackList = [⟨2, 100⟩])) = true :=
      Machine.reach_of_check rfl registeredTwice _ (by decide +kernel)
    obtain ⟨s, hs, hcheck⟩ := hrun
    simp only [Bool.and_eq_true, decide_eq_true_eq, Option.any_eq_true] at hcheck
    obtain ⟨⟨hopen, object, hlive, hbefore⟩, s', hn, object', hlive', hafter⟩ := hcheck
    exact ⟨s, s', object, object', hs, hopen, hn, hlive, hlive', hbefore, hafter⟩

end Xha
