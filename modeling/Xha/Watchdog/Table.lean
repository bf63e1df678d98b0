/-
What the calls of watchdog.c keep: every instance in the table has a timer of its own that is active, so the table never
outgrows the timers of the domain, and a call changes no timer but that of its instance.
-/
import Xha.Watchdog.Instance

namespace Xha

variable {w : Watchdogs} {env : HypercallEnv} {file : RecordEnv} {now id timeout : Nat} {handle : WatchdogHandle}

/-! ## Hypercalls -/

/-- What a hypercall for a watchdog can do: nothing at all, a new timer, or a change of one that is active. -/
inductive HypercallMove (w : Watchdogs) (now id timeout : Nat) : MtcStatus × Nat × Watchdogs → Prop
  | refused (p : Privcmd) (status : MtcStatus) :
      status ≠ mtcSuccess → HypercallMove w now id timeout (status, id, { w with privcmd := p })
  | created (p : Privcmd) (new : Nat) :
      id = 0 → 0 < new → new ≤ nrWatchdogTimers → w.timers.expires new = none →
        HypercallMove w now id timeout
          (mtcSuccess, new, { w with privcmd := p, timers := w.timers.set new (some (now + timeout * 1000)) })
  | changed (p : Privcmd) :
      w.timers.expires id ≠ none →
        HypercallMove w now id timeout (mtcSuccess, id, { w with
          privcmd := p
          timers := w.timers.set id (if timeout = 0 then none else some (now + timeout * 1000)) })

/-- A hypercall is refused on its way, or it gets what the hypervisor answers. -/
theorem doHypercall_cases (env : HypercallEnv) (w : Watchdogs) (ioctl : Watchdogs → Int × Watchdogs) :
    (∃ status p, status ≠ mtcSuccess ∧ doHypercall env w ioctl = ((status, 0), { w with privcmd := p })) ∨
      ∃ p ret w', ioctl { w with privcmd := p } = (ret, w') ∧
        doHypercall env w ioctl = if ret < 0 then ((mtcErrorWdInstanceUnavailable, 0), w') else ((mtcSuccess, ret), w') := by
  unfold doHypercall
  by_cases hopen : (w.privcmd.hypercallFd || (env.opens && !env.fistOpen)) = true
  · by_cases hfist : env.fistUnavailable = true
    · refine .inl ⟨mtcErrorWdInstanceUnavailable, { w.privcmd with hypercallFd := true }, by decide, ?_⟩
      simp [hopen, hfist]
    · by_cases hreach : env.reaches = true
      · refine .inr ⟨{ w.privcmd with hypercallFd := true }, _, _, rfl, ?_⟩
        simp [hopen, hfist, hreach]
      · refine .inl ⟨mtcErrorWdInstanceUnavailable, { w.privcmd with hypercallFd := true }, by decide, ?_⟩
        simp [hopen, hfist, hreach]
  · refine .inl ⟨mtcErrorWdOpen, w.privcmd, by decide, ?_⟩
    simp [hopen]

theorem doWatchdogHypercall_move (env : HypercallEnv) (now id timeout : Nat) (h : w.watchdogMode = .hypervisor) :
    HypercallMove w now id timeout (doWatchdogHypercall env now w id timeout) := by
  unfold doWatchdogHypercall
  rw [if_neg (by simp [h])]
  split
  · exact .refused w.privcmd _ (by decide)
  · dsimp only
    rcases doHypercall_cases env { w with privcmd := { w.privcmd with mlockDone := true } } fun w =>
        ((doWatchdog w.timers now id timeout).1, { w with timers := (doWatchdog w.timers now id timeout).2 }) with
      ⟨status, p, hstatus, heq⟩ | ⟨p, ret, w', hioctl, heq⟩
    · rw [heq]
      dsimp only
      rw [if_pos hstatus]
      exact .refused p status hstatus
    · obtain ⟨rfl, rfl⟩ := Prod.mk.inj hioctl
      rw [heq]
      dsimp only
      by_cases hid : id = 0
      · subst hid
        rcases doWatchdog_new w.timers now timeout with
          ⟨hfull, -⟩ | ⟨new, hpos, hle, hfree, hnew⟩
        · have herrno : -eexist < 0 := by decide
          rw [hfull]
          dsimp only
          rw [if_pos herrno]
          exact .refused p mtcErrorWdInstanceUnavailable (by decide)
        · have hret : ¬ (new : Int) < 0 := by omega
          rw [hnew]
          dsimp only
          rw [if_neg hret]
          dsimp only
          rw [if_neg (not_not_intro rfl), if_pos rfl, if_pos (Int.natCast_pos.2 hpos), Int.toNat_natCast]
          exact .created p new rfl hpos hle hfree
      · by_cases hactive : w.timers.expires id = none
        · obtain ⟨errno, herrno, hdo⟩ := doWatchdog_inactive now timeout hid hactive
          rw [hdo]
          dsimp only
          rw [if_pos herrno]
          exact .refused p mtcErrorWdInstanceUnavailable (by decide)
        · rw [doWatchdog_active hactive]
          dsimp only
          rw [if_neg (lt_irrefl 0)]
          dsimp only
          rw [if_neg (not_not_intro rfl), if_neg hid]
          exact .changed p hactive

/-- In the other modes a hypercall does nothing. -/
theorem doWatchdogHypercall_of_mode (h : w.watchdogMode ≠ .hypervisor) :
    doWatchdogHypercall env now w id timeout = (mtcSuccess, id, w) := if_pos h

/-- The call is a hypercall that nothing is in the way of: an active timer is set or stopped. -/
theorem doWatchdogHypercall_clear (now timeout : Nat) (hmode : w.watchdogMode = .hypervisor) (henv : env.clear = true)
    (hactive : w.timers.expires id ≠ none) :
    ∃ p, doWatchdogHypercall env now w id timeout = (mtcSuccess, id, { w with
      privcmd := p
      timers := w.timers.set id (if timeout = 0 then none else some (now + timeout * 1000)) }) := by
  simp only [HypercallEnv.clear, Bool.and_eq_true, Bool.not_eq_true'] at henv
  obtain ⟨⟨⟨⟨⟨harg, hhypercall⟩, hopen⟩, hfist⟩, havail⟩, hreach⟩ := henv
  have hid : id ≠ 0 := fun h => absurd (w.timers.slots id hactive).1 (by omega)
  refine ⟨⟨true, true⟩, ?_⟩
  unfold doWatchdogHypercall
  rw [if_neg (by simp [hmode]), if_neg (by simp [harg, hhypercall])]
  unfold doHypercall
  simp [hopen, hfist, havail, hreach, doWatchdog_active hactive, hid]

/-! ## The table -/

/-- Every instance has an active timer of its own, which runs out when the last refresh says, if that went through. In
the other modes no instance has a timer. -/
structure TableInv (w : Watchdogs) : Prop where
  handles : (w.instances.map (·.handle)).Nodup
  ids : w.watchdogMode = .hypervisor → (w.instances.map (·.id)).Nodup
  active : w.watchdogMode = .hypervisor → ∀ i ∈ w.instances, ∃ expires, w.timers.expires i.id = some expires ∧
    (i.status = mtcSuccess → expires = i.setTime + i.timeout * 1000)
  idle : w.watchdogMode ≠ .hypervisor → ∀ i ∈ w.instances, i.id = 0
  fresh : w.initialized = false → w.instances = []

/-- What a call leaves alone: the timers of others, and that a timer which is not active only becomes so for an
instance. -/
structure WatchdogsKept (w w' : Watchdogs) : Prop where
  others : ∀ id, (∀ i ∈ w.instances, i.id ≠ id) → w.timers.expires id ≠ none →
    w'.timers.expires id = w.timers.expires id
  new : ∀ id, w'.timers.expires id ≠ none → w.timers.expires id ≠ none ∨ ∃ i ∈ w'.instances, i.id = id
  mode : w.initialized = true → w'.watchdogMode = w.watchdogMode
  initialized : w.initialized = true → w'.initialized = true
  down : w'.down = w.down

theorem TableInv.congr {w' : Watchdogs} (h : TableInv w) (hinstances : w'.instances = w.instances)
    (htimers : w'.timers = w.timers) (hmode : w'.watchdogMode = w.watchdogMode)
    (hinitialized : w'.initialized = w.initialized) : TableInv w' where
  handles := hinstances ▸ h.handles
  ids hm := hinstances ▸ h.ids (hmode ▸ hm)
  active hm := by rw [hinstances, htimers]; exact h.active (hmode ▸ hm)
  idle hm := by rw [hinstances]; exact h.idle (hmode ▸ hm)
  fresh hf := hinstances.trans (h.fresh (hinitialized ▸ hf))

theorem WatchdogsKept.congr {w' : Watchdogs} (htimers : w'.timers = w.timers) (hmode : w'.watchdogMode = w.watchdogMode)
    (hinitialized : w'.initialized = w.initialized) (hdown : w'.down = w.down) : WatchdogsKept w w' where
  others id _ _ := by rw [htimers]
  new id h := .inl (htimers ▸ h)
  mode _ := hmode
  initialized h := hinitialized.trans h
  down := hdown

/-- A table takes no more instances than the domain has timers. -/
theorem TableInv.length_le (h : TableInv w) (hmode : w.watchdogMode = .hypervisor) :
    w.instances.length ≤ nrWatchdogTimers := by
  have hsub : w.instances.map (·.id) ⊆ (List.range nrWatchdogTimers).map (· + 1) := by
    intro id hid
    obtain ⟨i, hi, rfl⟩ := List.mem_map.1 hid
    obtain ⟨expires, hexpires, -⟩ := h.active hmode i hi
    obtain ⟨hpos, hle⟩ := w.timers.slots i.id (by rw [hexpires]; exact Option.some_ne_none _)
    exact List.mem_map.2 ⟨i.id - 1, List.mem_range.2 (by omega), by omega⟩
  have hlen := ((h.ids hmode).subperm hsub).length_le
  rwa [List.length_map, List.length_map, List.length_range] at hlen

/-- Instances with one handle are one. -/
theorem TableInv.eq_of_handle (h : TableInv w) {i j : WatchdogInstance} (hi : i ∈ w.instances) (hj : j ∈ w.instances)
    (heq : i.handle = j.handle) : i = j := List.inj_on_of_nodup_map h.handles hi hj heq

theorem Watchdogs.find_eq_some (h : TableInv w) {i : WatchdogInstance} :
    w.find handle = some i ↔ i ∈ w.instances ∧ i.handle = handle := by
  constructor
  · intro hfind
    exact ⟨List.mem_of_find?_eq_some hfind, by simpa using List.find?_some hfind⟩
  · rintro ⟨hi, rfl⟩
    cases hfind : w.find i.handle with
    | none =>
      have hnone := List.find?_eq_none.1 hfind i hi
      simp at hnone
    | some j =>
      have hj := List.find?_some hfind
      rw [h.eq_of_handle (List.mem_of_find?_eq_some hfind) hi (by simpa using hj)]

/-! ## The file -/

theorem recordWatchdogInstance_eq (file : RecordEnv) (w : Watchdogs) :
    ∃ idFile, recordWatchdogInstance file w = { w with idFile } := by
  unfold recordWatchdogInstance
  split
  · split <;> exact ⟨_, rfl⟩
  · split <;> exact ⟨_, rfl⟩

/-- The file names the instances in the table; there is none when the table is empty. -/
def Watchdogs.Recorded (w : Watchdogs) : Prop :=
  w.idFile = if w.instances = [] then none else some (idText w.instances)

/-- Where the file system lets it, a call leaves the file to name the instances. -/
theorem recorded_recordWatchdogInstance (hopen : file.fopens = true) (hunlink : file.unlinks = true) (w : Watchdogs) :
    (recordWatchdogInstance file w).Recorded := by
  unfold recordWatchdogInstance Watchdogs.Recorded
  cases hw : w.instances with
  | nil =>
    cases hfile : w.idFile with
    | none => simp [hw, hfile]
    | some text => simp [hunlink]
  | cons i rest => simp [hopen]

/-- A hypercall for an instance is refused, or it sets or stops its timer; in the other modes it does nothing. -/
theorem hypercall_instance (h : TableInv w) {i : WatchdogInstance} (hi : i ∈ w.instances) (env : HypercallEnv)
    (now timeout : Nat) :
    ∃ status p t, doWatchdogHypercall env now w i.id timeout = (status, i.id, { w with privcmd := p, timers := t }) ∧
      ((status ≠ mtcSuccess ∧ t = w.timers) ∨ (status = mtcSuccess ∧ w.watchdogMode ≠ .hypervisor ∧ t = w.timers) ∨
        (status = mtcSuccess ∧ w.watchdogMode = .hypervisor ∧
          t = w.timers.set i.id (if timeout = 0 then none else some (now + timeout * 1000)))) := by
  by_cases hmode : w.watchdogMode = .hypervisor
  · obtain ⟨expires, hexpires, -⟩ := h.active hmode i hi
    have hactive : w.timers.expires i.id ≠ none := by rw [hexpires]; exact Option.some_ne_none _
    have hmove := doWatchdogHypercall_move env now i.id timeout hmode
    generalize doWatchdogHypercall env now w i.id timeout = r at hmove ⊢
    cases hmove with
    | refused p status hstatus => exact ⟨status, p, w.timers, rfl, .inl ⟨hstatus, rfl⟩⟩
    | created p new hid _ _ _ =>
      have hpos := (w.timers.slots i.id hactive).1
      omega
    | changed p _ => exact ⟨mtcSuccess, p, _, rfl, .inr (.inr ⟨rfl, hmode, rfl⟩)⟩
  · exact ⟨mtcSuccess, w.privcmd, w.timers, doWatchdogHypercall_of_mode hmode, .inr (.inl ⟨rfl, hmode, rfl⟩)⟩

/-- Instances other than the one a hypercall is for keep their timers. -/
theorem TableInv.id_ne (h : TableInv w) (hmode : w.watchdogMode = .hypervisor) {i j : WatchdogInstance}
    (hi : i ∈ w.instances) (hj : j ∈ w.instances) (hne : j.handle ≠ i.handle) : j.id ≠ i.id := fun hid =>
  hne (congrArg (·.handle) (List.inj_on_of_nodup_map (h.ids hmode) hj hi hid))

/-! ## `watchdog_create` -/

theorem TableInv.configure (h : TableInv w) (wdMode : List Char) : TableInv (w.configure wdMode) := by
  unfold Watchdogs.configure
  split
  · exact h
  · rename_i hnew
    have hempty : w.instances = [] := h.fresh (Bool.of_not_eq_true hnew)
    constructor
    · exact h.handles
    · intro _
      simp [hempty]
    · intro _ i hi
      simp [hempty] at hi
    · intro _ i hi
      simp [hempty] at hi
    · intro _
      exact hempty

/-- A hypercall that is given a new instance. -/
theorem TableInv.append {new : Nat} {w' : Watchdogs} (h : TableInv w)
    (hinit : w.initialized = true) (hfree : handle ∉ w.instances.map (·.handle))
    (hcall : doWatchdogHypercall env now w 0 timeout = (mtcSuccess, new, w')) :
    TableInv { w' with instances := w'.instances ++ [⟨handle, new, now, timeout, mtcSuccess⟩] } ∧
      w'.instances = w.instances ∧ w.timers.expires new = none ∧
        WatchdogsKept w { w' with instances := w'.instances ++ [⟨handle, new, now, timeout, mtcSuccess⟩] } := by
  by_cases hmode : w.watchdogMode = .hypervisor
  · have hmove := doWatchdogHypercall_move env now 0 timeout hmode
    rw [hcall] at hmove
    cases hmove with
    | refused p status hstatus => exact absurd rfl hstatus
    | changed p hactive => exact absurd (w.timers.slots 0 hactive).1 (lt_irrefl 0)
    | created p new _ hpos hle hunused =>
      have hother : ∀ i ∈ w.instances, i.id ≠ new := by
        rintro i hi rfl
        obtain ⟨expires, hexpires, -⟩ := h.active hmode i hi
        rw [hunused] at hexpires
        cases hexpires
      refine ⟨⟨?_, ?_, ?_, ?_, ?_⟩, rfl, hunused, ⟨?_, ?_, ?_, ?_, rfl⟩⟩
      · simpa [List.nodup_append, h.handles] using hfree
      · intro _
        simpa [List.nodup_append, h.ids hmode] using hother
      · intro _ i hi
        rcases List.mem_append.1 hi with hi | hi
        · obtain ⟨expires, hexpires, hlast⟩ := h.active hmode i hi
          exact ⟨expires, (WatchdogTimers.set_expires_of_ne (hother i hi) _).trans hexpires, hlast⟩
        · obtain rfl := List.mem_singleton.1 hi
          exact ⟨_, WatchdogTimers.set_expires_self ⟨hpos, hle⟩ _, fun _ => rfl⟩
      · intro hne
        exact absurd hmode hne
      · intro hfresh
        rw [hinit] at hfresh
        cases hfresh
      · intro id _ hid
        refine WatchdogTimers.set_expires_of_ne ?_ _
        rintro rfl
        exact hid hunused
      · intro id hid
        by_cases hnew : id = new
        · exact .inr ⟨_, List.mem_append_right _ (List.mem_singleton_self _), hnew.symm⟩
        · exact .inl ((WatchdogTimers.set_expires_of_ne hnew _) ▸ hid)
      · exact fun _ => rfl
      · exact id
  · rw [doWatchdogHypercall_of_mode hmode] at hcall
    obtain ⟨-, hpair⟩ := Prod.mk.inj hcall
    obtain ⟨rfl, rfl⟩ := Prod.mk.inj hpair
    refine ⟨⟨?_, ?_, ?_, ?_, ?_⟩, rfl, w.timers.expires_zero, WatchdogsKept.congr rfl rfl rfl rfl⟩
    · simpa [List.nodup_append, h.handles] using hfree
    · intro hm
      exact absurd hm hmode
    · intro hm
      exact absurd hm hmode
    · intro _ i hi
      rcases List.mem_append.1 hi with hi | hi
      · exact h.idle hmode i hi
      · rw [List.mem_singleton.1 hi]
    · intro hfresh
      rw [hinit] at hfresh
      cases hfresh

/-- A call makes one instance, or it fails and leaves table, timers and file. -/
theorem watchdogCreate_spec {wdMode : List Char} {malloc out var : Option WatchdogHandle} {status : MtcStatus}
    {w' : Watchdogs} (h : TableInv w) (hfree : ∀ addr, malloc = some addr → addr ∉ w.instances.map (·.handle))
    (hcall : watchdogCreate wdMode malloc env file now w var = (status, out, w')) :
    TableInv w' ∧ WatchdogsKept (w.configure wdMode) w' ∧ w'.initialized = true ∧
      ((status = mtcSuccess ∧ ∃ new : WatchdogInstance, malloc = some new.handle ∧ out = some new.handle ∧
          w'.instances = w.instances ++ [new] ∧ w.timers.expires new.id = none ∧
            (file.fopens = true → file.unlinks = true → w'.Recorded)) ∨
        (status ≠ mtcSuccess ∧ (out = var ∨ out = none) ∧ w'.instances = w.instances ∧ w'.timers = w.timers ∧
          w'.idFile = w.idFile)) := by
  have hinv := h.configure wdMode
  have hinit : (w.configure wdMode).initialized = true := by
    unfold Watchdogs.configure
    split
    · assumption
    · rfl
  have hsame : (w.configure wdMode).instances = w.instances ∧ (w.configure wdMode).timers = w.timers ∧
      (w.configure wdMode).idFile = w.idFile := by
    unfold Watchdogs.configure
    split <;> exact ⟨rfl, rfl, rfl⟩
  obtain ⟨hinstances, htimers, hidFile⟩ := hsame
  unfold watchdogCreate at hcall
  rw [← hinstances, ← htimers, ← hidFile]
  generalize w.configure wdMode = c at *
  cases malloc with
  | none =>
    cases hcall
    exact ⟨hinv, .congr rfl rfl rfl rfl, hinit, .inr ⟨by decide, .inl rfl, rfl, rfl, rfl⟩⟩
  | some addr =>
    dsimp only at hcall
    rcases hdo : doWatchdogHypercall env now c 0 watchdogTimeoutMax with ⟨answer, id, w₁⟩
    rw [hdo] at hcall
    dsimp only at hcall
    by_cases hok : answer = mtcSuccess
    · subst hok
      rw [if_pos rfl] at hcall
      obtain ⟨rfl, hpair⟩ := Prod.mk.inj hcall
      obtain ⟨rfl, hrecord⟩ := Prod.mk.inj hpair
      obtain ⟨happend, hold, hunused, hkept⟩ := hinv.append hinit (hinstances ▸ hfree addr rfl) hdo
      obtain ⟨idFile, hfile⟩ := recordWatchdogInstance_eq file { w₁ with
        instances := w₁.instances ++ [⟨addr, id, now, watchdogTimeoutMax, mtcSuccess⟩] }
      have hrecorded : file.fopens = true → file.unlinks = true → w'.Recorded := fun hopen hunlink =>
        hrecord ▸ recorded_recordWatchdogInstance hopen hunlink _
      rw [hfile] at hrecord
      subst hrecord
      refine ⟨happend.congr rfl rfl rfl rfl, ⟨hkept.others, hkept.new, hkept.mode, hkept.initialized, hkept.down⟩,
        hkept.initialized hinit, .inl ⟨rfl, ⟨addr, id, now, watchdogTimeoutMax, mtcSuccess⟩, rfl, rfl, ?_, hunused,
          hrecorded⟩⟩
      exact congrArg (· ++ [_]) hold
    · rw [if_neg hok] at hcall
      obtain ⟨rfl, hpair⟩ := Prod.mk.inj hcall
      obtain ⟨rfl, rfl⟩ := Prod.mk.inj hpair
      by_cases hmode : c.watchdogMode = .hypervisor
      · have hmove := doWatchdogHypercall_move env now 0 watchdogTimeoutMax hmode
        rw [hdo] at hmove
        cases hmove with
        | refused p _ _ =>
          exact ⟨hinv.congr rfl rfl rfl rfl, .congr rfl rfl rfl rfl, hinit, .inr ⟨hok, .inr rfl, rfl, rfl, rfl⟩⟩
        | created p new _ _ _ _ => exact absurd rfl hok
        | changed p _ => exact absurd rfl hok
      · rw [doWatchdogHypercall_of_mode hmode] at hdo
        exact absurd (Prod.mk.inj hdo).1.symm hok

/-! ## `watchdog_close` -/

theorem mem_removeInstance {instances : List WatchdogInstance} (h : (instances.map (·.handle)).Nodup)
    {j : WatchdogInstance} : j ∈ removeInstance instances handle ↔ j ∈ instances ∧ j.handle ≠ handle := by
  rw [removeInstance, (List.swapRemove_perm _).mem_iff]
  rcases List.exists_or_eq_self_of_eraseP (fun i : WatchdogInstance => decide (i.handle = handle)) instances with
    heq | ⟨a, l₁, l₂, hl₁, ha, rfl, herase⟩
  · rw [heq]
    refine ⟨fun hj => ⟨hj, fun hhandle => ?_⟩, And.left⟩
    obtain ⟨a, l₁, l₂, -, -, hl, herase⟩ :=
      List.exists_of_eraseP (p := fun i : WatchdogInstance => decide (i.handle = handle)) hj (decide_eq_true hhandle)
    rw [heq] at herase
    have hlen := congrArg List.length (hl.symm.trans herase)
    simp at hlen
  · rw [herase]
    have hhandle : a.handle = handle := of_decide_eq_true ha
    rw [List.map_append, List.map_cons, List.nodup_middle, List.nodup_cons, ← List.map_append] at h
    constructor
    · intro hj
      refine ⟨?_, fun hsame => h.1 ?_⟩
      · rcases List.mem_append.1 hj with hj | hj
        · exact List.mem_append_left _ hj
        · exact List.mem_append_right _ (List.mem_cons_of_mem a hj)
      · exact List.mem_map.2 ⟨j, hj, hsame.trans hhandle.symm⟩
    · rintro ⟨hj, hne⟩
      rcases List.mem_append.1 hj with hj | hj
      · exact List.mem_append_left _ hj
      · rcases List.mem_cons.1 hj with rfl | hj
        · exact absurd hhandle hne
        · exact List.mem_append_right _ hj

theorem nodup_map_removeInstance {β : Type} (f : WatchdogInstance → β) {instances : List WatchdogInstance}
    (h : (instances.map f).Nodup) : ((removeInstance instances handle).map f).Nodup := by
  rw [removeInstance, ((List.swapRemove_perm _).map f).nodup_iff]
  exact h.sublist (List.eraseP_sublist.map f)

/-- A call with the handle of an instance takes it out of the table, and stops its timer if the hypercall goes through. -/
theorem watchdogClose_spec {w' : Watchdogs} (h : TableInv w)
    (hcall : watchdogClose env file now w (some handle) = .returns w') :
    ∃ i ∈ w.instances, i.handle = handle ∧ TableInv w' ∧ WatchdogsKept w w' ∧
      (∀ j, j ∈ w'.instances ↔ j ∈ w.instances ∧ j.handle ≠ handle) ∧
      (w.watchdogMode = .hypervisor → env.clear = true → w'.timers.expires i.id = none) ∧
      (file.fopens = true → file.unlinks = true → w'.Recorded) := by
  unfold watchdogClose at hcall
  dsimp only at hcall
  cases hfind : w.find handle with
  | none =>
    rw [hfind] at hcall
    cases hcall
  | some i =>
    obtain ⟨hi, rfl⟩ := (Watchdogs.find_eq_some h).1 hfind
    obtain ⟨status, p, t, hdo, hresult⟩ := hypercall_instance h hi env now 0
    rw [hfind] at hcall
    dsimp only at hcall
    rw [hdo] at hcall
    dsimp only at hcall
    cases hcall
    -- what the two last calls leave alone
    have hlast : ∃ p' idFile, recordWatchdogInstance file
        (if (removeInstance w.instances i.handle).length = 0 then
          doWatchdogClose { w with instances := removeInstance w.instances i.handle, privcmd := p, timers := t }
        else { w with instances := removeInstance w.instances i.handle, privcmd := p, timers := t }) =
          { w with instances := removeInstance w.instances i.handle, privcmd := p', timers := t, idFile } := by
      split
      · unfold doWatchdogClose
        split
        · obtain ⟨idFile, hfile⟩ := recordWatchdogInstance_eq file _
          exact ⟨_, idFile, hfile⟩
        · obtain ⟨idFile, hfile⟩ := recordWatchdogInstance_eq file _
          exact ⟨_, idFile, hfile⟩
      · obtain ⟨idFile, hfile⟩ := recordWatchdogInstance_eq file _
        exact ⟨_, idFile, hfile⟩
    have hrecorded : file.fopens = true → file.unlinks = true → _ := fun hopen hunlink =>
      recorded_recordWatchdogInstance hopen hunlink
        (if (removeInstance w.instances i.handle).length = 0 then
          doWatchdogClose { w with instances := removeInstance w.instances i.handle, privcmd := p, timers := t }
        else { w with instances := removeInstance w.instances i.handle, privcmd := p, timers := t })
    obtain ⟨p', idFile, hlast⟩ := hlast
    rw [hlast] at hrecorded ⊢
    have hmem : ∀ j, j ∈ removeInstance w.instances i.handle ↔ j ∈ w.instances ∧ j.handle ≠ i.handle := fun j =>
      mem_removeInstance h.handles
    have hsame : ∀ id, (w.watchdogMode = .hypervisor → id ≠ i.id) → t.expires id = w.timers.expires id := by
      intro id hid
      rcases hresult with ⟨-, rfl⟩ | ⟨-, -, rfl⟩ | ⟨-, hmode, rfl⟩
      · rfl
      · rfl
      · exact WatchdogTimers.set_expires_of_ne (hid hmode) _
    refine ⟨i, hi, rfl, ⟨?_, ?_, ?_, ?_, ?_⟩, ⟨?_, ?_, fun _ => rfl, id, rfl⟩, hmem, ?_, hrecorded⟩
    · exact nodup_map_removeInstance _ h.handles
    · exact fun hmode => nodup_map_removeInstance _ (h.ids hmode)
    · intro hmode j hj
      obtain ⟨hj, hne⟩ := (hmem j).1 hj
      obtain ⟨expires, hexpires, hrefreshed⟩ := h.active hmode j hj
      exact ⟨expires, (hsame j.id fun _ => h.id_ne hmode hi hj hne).trans hexpires, hrefreshed⟩
    · intro hmode j hj
      exact h.idle hmode j ((hmem j).1 hj).1
    · intro hfresh
      have hempty := h.fresh hfresh
      rw [hempty] at hi
      cases hi
    · intro id hid _
      exact hsame id fun _ => (hid i hi).symm
    · intro id hid
      by_cases hsameId : id = i.id
      · left
        rcases hresult with ⟨-, rfl⟩ | ⟨-, -, rfl⟩ | ⟨-, hmode, rfl⟩
        · exact hid
        · exact hid
        · obtain ⟨expires, hexpires, -⟩ := h.active hmode i hi
          rw [hsameId, hexpires]
          exact Option.some_ne_none _
      · exact .inl ((hsame id fun _ => hsameId) ▸ hid)
    · intro hmode henv
      obtain ⟨expires, hexpires, -⟩ := h.active hmode i hi
      have hactive : w.timers.expires i.id ≠ none := by rw [hexpires]; exact Option.some_ne_none _
      obtain ⟨p'', hclear⟩ := doWatchdogHypercall_clear now 0 hmode henv hactive
      rw [hdo] at hclear
      have ht : t = w.timers.set i.id none := congrArg (fun r => r.2.2.timers) hclear
      rw [ht]
      exact WatchdogTimers.set_expires_self (w.timers.slots _ hactive) _

theorem watchdogClose_dangles (h : TableInv w) :
    watchdogClose env file now w (some handle) = .dangles ↔ handle ∉ w.instances.map (·.handle) := by
  unfold watchdogClose
  dsimp only
  cases hfind : w.find handle with
  | none =>
    refine iff_of_true rfl fun hmem => ?_
    obtain ⟨i, hi, rfl⟩ := List.mem_map.1 hmem
    rw [(Watchdogs.find_eq_some h).2 ⟨hi, rfl⟩] at hfind
    cases hfind
  | some i =>
    obtain ⟨hi, rfl⟩ := (Watchdogs.find_eq_some h).1 hfind
    exact iff_of_false (by rintro ⟨⟩) (not_not_intro (List.mem_map_of_mem hi))

theorem watchdogClose_not_aborts (var : Option WatchdogHandle) : watchdogClose env file now w var ≠ .aborts := by
  cases var with
  | none => rintro ⟨⟩
  | some handle =>
    unfold watchdogClose
    dsimp only
    cases w.find handle <;> rintro ⟨⟩

/-! ## `watchdog_set` -/

/-- A call with the handle of an instance refreshes it, and leaves the table otherwise as it was. -/
theorem watchdogSet_spec {status : MtcStatus} {w' : Watchdogs} (h : TableInv w) (htimeout : timeout ≠ 0)
    (hcall : watchdogSet env now w (some handle) timeout = .returns (status, w')) :
    ∃ i ∈ w.instances, i.handle = handle ∧ TableInv w' ∧ WatchdogsKept w w' ∧
      w'.instances = (w.instances.map fun j =>
        if j.handle = handle then { i with setTime := now, timeout, status } else j) ∧
      w'.instances.map (·.handle) = w.instances.map (·.handle) ∧ w'.instances.map (·.id) = w.instances.map (·.id) ∧
      w'.idFile = w.idFile := by
  unfold watchdogSet at hcall
  split at hcall
  · cases hcall
  dsimp only at hcall
  cases hfind : w.find handle with
  | none =>
    rw [hfind] at hcall
    cases hcall
  | some i =>
    obtain ⟨hi, rfl⟩ := (Watchdogs.find_eq_some h).1 hfind
    obtain ⟨answer, p, t, hdo, hresult⟩ := hypercall_instance h hi env now timeout
    rw [hfind] at hcall
    dsimp only at hcall
    rw [hdo] at hcall
    dsimp only at hcall
    cases hcall
    have hhandles : (w.instances.map fun j =>
        if j.handle = i.handle then { i with setTime := now, timeout, status } else j).map (·.handle) =
          w.instances.map (·.handle) := by
      rw [List.map_map]
      refine List.map_congr_left fun j _ => ?_
      by_cases hj : j.handle = i.handle <;> simp [hj]
    have hids : (w.instances.map fun j =>
        if j.handle = i.handle then { i with setTime := now, timeout, status } else j).map (·.id) =
          w.instances.map (·.id) := by
      rw [List.map_map]
      refine List.map_congr_left fun j hj => ?_
      by_cases hsame : j.handle = i.handle
      · rw [h.eq_of_handle hj hi hsame]
        simp
      · simp [hsame]
    have hactive : ∀ id, (∀ j ∈ w.instances, j.id ≠ id) → t.expires id = w.timers.expires id := by
      intro id hid
      rcases hresult with ⟨-, rfl⟩ | ⟨-, -, rfl⟩ | ⟨-, -, rfl⟩
      · rfl
      · rfl
      · exact WatchdogTimers.set_expires_of_ne (hid i hi).symm _
    refine ⟨i, hi, rfl, ⟨?_, ?_, ?_, ?_, ?_⟩, ⟨?_, ?_, fun _ => rfl, id, rfl⟩, rfl, hhandles, hids, rfl⟩
    · rw [hhandles]
      exact h.handles
    · intro hmode
      rw [hids]
      exact h.ids hmode
    · intro hmode j' hj'
      obtain ⟨j, hj, rfl⟩ := List.mem_map.1 hj'
      obtain ⟨expires, hexpires, hrefreshed⟩ := h.active hmode j hj
      by_cases hsame : j.handle = i.handle
      · obtain rfl := h.eq_of_handle hj hi hsame
        rw [if_pos rfl]
        rcases hresult with ⟨hrefused, rfl⟩ | ⟨-, hother, -⟩ | ⟨-, -, rfl⟩
        · exact ⟨expires, hexpires, fun hstatus => absurd hstatus hrefused⟩
        · exact absurd hmode hother
        · rw [if_neg htimeout]
          exact ⟨_, WatchdogTimers.set_expires_self
            (w.timers.slots _ (by rw [hexpires]; exact Option.some_ne_none _)) _, fun _ => rfl⟩
      · rw [if_neg hsame]
        refine ⟨expires, ?_, hrefreshed⟩
        rcases hresult with ⟨-, rfl⟩ | ⟨-, -, rfl⟩ | ⟨-, -, rfl⟩
        · exact hexpires
        · exact hexpires
        · exact (WatchdogTimers.set_expires_of_ne (h.id_ne hmode hi hj hsame) _).trans hexpires
    · intro hmode j' hj'
      obtain ⟨j, hj, rfl⟩ := List.mem_map.1 hj'
      by_cases hsame : j.handle = i.handle
      · rw [if_pos hsame]
        exact h.idle hmode i hi
      · rw [if_neg hsame]
        exact h.idle hmode j hj
    · intro hfresh
      rw [h.fresh hfresh] at hi
      cases hi
    · exact fun id hid _ => hactive id hid
    · intro id hid
      by_cases hmine : ∀ j ∈ w.instances, j.id ≠ id
      · exact .inl (hactive id hmine ▸ hid)
      · -- an instance that stays in the table
        right
        have hmem : id ∈ w.instances.map (·.id) := by
          by_contra hnot
          exact hmine fun j hj hjid => hnot (List.mem_map.2 ⟨j, hj, hjid⟩)
        rw [← hids] at hmem
        obtain ⟨j, hj, rfl⟩ := List.mem_map.1 hmem
        exact ⟨j, hj, rfl⟩

theorem watchdogSet_dangles (h : TableInv w)
    (hcall : watchdogSet env now w (some handle) timeout = .dangles) : handle ∉ w.instances.map (·.handle) := by
  intro hmem
  obtain ⟨i, hi, rfl⟩ := List.mem_map.1 hmem
  unfold watchdogSet at hcall
  split at hcall
  · cases hcall
  · dsimp only at hcall
    rw [(Watchdogs.find_eq_some h).2 ⟨hi, rfl⟩] at hcall
    cases hcall

/-! ## `watchdog_selffence` -/

/-- A hypercall to fence leaves every timer as it was, or sets it to run out within `WD_FENCE`. -/
theorem fence_hypercall (env : HypercallEnv) (now : Nat) (hmode : w.watchdogMode = .hypervisor)
    (hactive : w.timers.expires id ≠ none) :
    ∃ p t, (doWatchdogHypercall env now w id wdFence).2.2 = { w with privcmd := p, timers := t } ∧
      (∀ i, t.expires i = w.timers.expires i ∨ t.expires i = some (now + wdFence * 1000)) ∧
      (∀ i, w.timers.expires i ≠ none → t.expires i ≠ none) ∧
      (env.clear = true → t.expires id = some (now + wdFence * 1000)) := by
  have hmove := doWatchdogHypercall_move env now id wdFence hmode
  have hclear : env.clear = true → (doWatchdogHypercall env now w id wdFence).2.2.timers.expires id =
      some (now + wdFence * 1000) := by
    intro henv
    obtain ⟨p, hdo⟩ := doWatchdogHypercall_clear now wdFence hmode henv hactive
    rw [hdo]
    exact WatchdogTimers.set_expires_self (w.timers.slots _ hactive) _
  generalize doWatchdogHypercall env now w id wdFence = r at hmove hclear ⊢
  cases hmove with
  | refused p status _ => exact ⟨p, w.timers, rfl, fun _ => .inl rfl, fun _ h => h, hclear⟩
  | created p new hid _ _ _ =>
    have hpos := (w.timers.slots id hactive).1
    omega
  | changed p _ =>
    refine ⟨p, _, rfl, fun _ => WatchdogTimers.set_expires_le _ _ _ _, fun i hi => ?_, hclear⟩
    rcases WatchdogTimers.set_expires_le w.timers id i (if wdFence = 0 then none else some (now + wdFence * 1000)) with h | h
    · rw [h]
      exact hi
    · rw [h]
      exact Option.some_ne_none _

/-- The loop over the instances leaves every timer as it was, or sets it to run out within `WD_FENCE`; it sets the timer
of each instance whose hypercall goes through. -/
theorem fenceInstances_spec (env : Nat → HypercallEnv) (now : Nat) (rest : List WatchdogInstance) (wdi : Nat) (w : Watchdogs)
    (hmode : w.watchdogMode = .hypervisor) (hrest : ∀ i ∈ rest, w.timers.expires i.id ≠ none) :
    ∃ p t, fenceInstances env now w rest wdi = { w with privcmd := p, timers := t } ∧
      (∀ id, t.expires id = w.timers.expires id ∨ t.expires id = some (now + wdFence * 1000)) ∧
      (∀ k i, rest[k]? = some i → (env (wdi + k)).clear = true → t.expires i.id = some (now + wdFence * 1000)) := by
  induction rest generalizing wdi w with
  | nil =>
    refine ⟨w.privcmd, w.timers, rfl, fun _ => .inl rfl, ?_⟩
    intro k i hk
    cases hk
  | cons i rest ih =>
    obtain ⟨hfirst, hrest⟩ := List.forall_mem_cons.1 hrest
    obtain ⟨p₁, t₁, hdo, hsame₁, hactive₁, hset₁⟩ := fence_hypercall (env wdi) now hmode hfirst
    obtain ⟨p, t, heq, hsame, hset⟩ := ih (wdi + 1) { w with privcmd := p₁, timers := t₁ } hmode
      fun j hj => hactive₁ j.id (hrest j hj)
    refine ⟨p, t, ?_, ?_, ?_⟩
    · rw [fenceInstances, hdo, heq]
    · intro id
      rcases hsame id with h | h
      · rw [h]
        exact hsame₁ id
      · exact .inr h
    · intro k j hk henv
      cases k with
      | zero =>
        cases hk
        rcases hsame i.id with h | h
        · exact h.trans (hset₁ henv)
        · exact h
      | succ k =>
        refine hset k j hk ?_
        rwa [Nat.add_right_comm, Nat.add_assoc]

/-- A call that does not come back leaves domain 0 rebooting, or each timer as it was or set to run out within
`WD_FENCE`; where a hypercall goes through, domain 0 is rebooting or some timer runs out. -/
theorem watchdogSelffence_spec {shutdown : HypercallEnv} {env : Nat → HypercallEnv} {w' : Watchdogs} (h : TableInv w)
    (hcall : watchdogSelffence shutdown env now w = .returns w') :
    w.watchdogMode = .hypervisor ∧ w'.watchdogMode = w.watchdogMode ∧ w'.instances = w.instances ∧ w'.idFile = w.idFile ∧
      w'.initialized = w.initialized ∧
      (∀ id, w'.timers.expires id = w.timers.expires id ∨ w'.timers.expires id = some (now + wdFence * 1000)) ∧
      ((shutdown.clear = true ∨ ∃ k, k < w.instances.length ∧ (env k).clear = true) →
        w'.down = true ∨ ∃ id, w'.timers.expires id = some (now + wdFence * 1000)) := by
  unfold watchdogSelffence at hcall
  split at hcall
  · cases hcall
  rename_i hmode
  rw [not_not] at hmode
  -- the request to reboot changes no timer
  have hshutdown : ∃ p down, doDomainShutdownSelf shutdown w = { w with privcmd := p, down } ∧
      (shutdown.clear = true → down = true) := by
    unfold doDomainShutdownSelf
    rcases doHypercall_cases shutdown w fun w => (0, { w with down := true }) with
      ⟨status, p, hstatus, heq⟩ | ⟨p, ret, w₁, hioctl, heq⟩
    · refine ⟨p, w.down, by rw [heq], fun hclear => absurd ?_ hstatus⟩
      simp only [HypercallEnv.clear, Bool.and_eq_true, Bool.not_eq_true'] at hclear
      obtain ⟨⟨⟨⟨-, hopen⟩, hfist⟩, havail⟩, hreach⟩ := hclear
      simp [doHypercall, hopen, hfist, havail, hreach] at heq
      exact heq.1.symm
    · obtain ⟨rfl, rfl⟩ := Prod.mk.inj hioctl
      refine ⟨p, true, ?_, fun _ => rfl⟩
      rw [heq, if_neg (lt_irrefl 0)]
  obtain ⟨p, down, hdo, hdown⟩ := hshutdown
  rw [hdo] at hcall
  dsimp only at hcall
  split at hcall
  · rename_i hyes
    cases hcall
    exact ⟨hmode, rfl, rfl, rfl, rfl, fun _ => .inl rfl, fun _ => .inl hyes⟩
  rename_i hno
  split at hcall
  · rename_i hempty
    cases hcall
    have hmove := doWatchdogHypercall_move (env 0) now 0 wdFence (w := { w with privcmd := p, down }) hmode
    generalize doWatchdogHypercall (env 0) now { w with privcmd := p, down } 0 wdFence = r at hmove ⊢
    have hnone : (shutdown.clear = true ∨ ∃ k, k < w.instances.length ∧ (env k).clear = true) → False := by
      rintro (hclear | ⟨k, hk, -⟩)
      · exact hno (hdown hclear)
      · rw [hempty] at hk
        exact absurd hk (Nat.not_lt_zero k)
    cases hmove with
    | refused p _ _ => exact ⟨hmode, rfl, rfl, rfl, rfl, fun _ => .inl rfl, fun h => (hnone h).elim⟩
    | created p new _ _ _ _ =>
      exact ⟨hmode, rfl, rfl, rfl, rfl, fun _ => WatchdogTimers.set_expires_le _ _ _ _, fun h => (hnone h).elim⟩
    | changed p hactive => exact absurd (w.timers.slots 0 hactive).1 (lt_irrefl 0)
  · cases hcall
    obtain ⟨p', t, hfence, hsame, hset⟩ := fenceInstances_spec env now w.instances 0
      { w with privcmd := p, down } hmode fun i hi => by
        obtain ⟨expires, hexpires, -⟩ := h.active hmode i hi
        rw [hexpires]
        exact Option.some_ne_none _
    rw [hfence]
    refine ⟨hmode, rfl, rfl, rfl, rfl, hsame, ?_⟩
    rintro (hclear | ⟨k, hk, henv⟩)
    · exact absurd (hdown hclear) hno
    · right
      refine ⟨_, hset k w.instances[k] (List.getElem?_eq_getElem hk) ?_⟩
      rwa [Nat.zero_add]

theorem watchdogSelffence_not_dangles (shutdown : HypercallEnv) (env : Nat → HypercallEnv) (now : Nat) :
    watchdogSelffence shutdown env now w ≠ .dangles := by
  unfold watchdogSelffence
  split
  · rintro ⟨⟩
  · dsimp only
    split
    · rintro ⟨⟩
    · split <;> rintro ⟨⟩

end Xha
