/-
Who has the watchdog instances in the running daemon (`watchdogs_have_owners`): the handles of the heartbeat and of the
State-File are those of the instances in the table, so a table has at most two, and a call reads an instance that has
been freed only in `hb_hb_updated` when `hb_initialize(-1)` has closed the watchdog before. A step does one of eight
things to the instances (`WatchdogMove`), and each keeps them with their owners (`OwnersInv`).
-/
import Xha.Watchdog.Fencing

namespace Xha

open Transition

variable {c : FencingConfig} {s s' : FencingState} {a : FencingAction} {env : HypercallEnv} {file : RecordEnv}

/-! ## What a step does to the instances -/

/-- The heartbeat thread is over, and so is `hb_initialize(-1)`. -/
def FencingState.hbPast (s : FencingState) : Prop := s.hbReceive = false ∧ (s.main = .hbStopped ∨ s.main = .stopped)

/-- The environment of a step that may close an instance. -/
def FencingAction.close? : FencingAction → Option (HypercallEnv × RecordEnv)
  | .hbTerminate env file | .sfTerminate env file | .hbUpdated env file | .sfUpdated env file
  | .requestHb env file | .requestSf env file => some (env, file)
  | _ => none

/-- The file operations of a step that may create an instance. -/
def FencingAction.create? : FencingAction → Option RecordEnv
  | .sfInitialize1 _ _ file _ | .hbInitialize1 _ _ file _ _ => some file
  | _ => none

/-- What a step can do to the instances and their owners. -/
inductive WatchdogMove (c : FencingConfig) (s : FencingState) (a : FencingAction) (s' : FencingState) : Prop
  | quiet :
      s'.wd = s.wd → s'.hbWatchdog = s.hbWatchdog → s'.sfWatchdog = s.sfWatchdog → s'.fenced = s.fenced →
        s'.crash ≠ some .dangling → WatchdogMove c s a s'
  | dangled (handle : WatchdogHandle) :
      s'.wd = s.wd → s'.hbWatchdog = s.hbWatchdog → s'.sfWatchdog = s.sfWatchdog → s'.fenced = s.fenced →
        s.fenced = none → s.hbWatchdog = some handle ∨ s.sfWatchdog = some handle →
          (∃ env timeout, watchdogSet env s.now s.wd (some handle) timeout = .dangles) ∨
            (∃ env file, watchdogClose env file s.now s.wd (some handle) = .dangles) → WatchdogMove c s a s'
  | sfCreated (malloc : Option WatchdogHandle) (env : HypercallEnv) (file : RecordEnv) (status : MtcStatus) :
      a.create? = some file → s.main = .start → s'.main ≠ .start → s.mallocs malloc = true →
        watchdogCreate c.wdMode malloc env file s.now s.wd s.sfWatchdog = (status, s'.sfWatchdog, s'.wd) →
          s'.hbWatchdog = s.hbWatchdog → s.fenced = none → s'.fenced = none → s'.crash = s.crash → WatchdogMove c s a s'
  | hbCreated (malloc out : Option WatchdogHandle) (env : HypercallEnv) (file : RecordEnv) (status : MtcStatus) :
      a.create? = some file → s.main = .sfReady → (s'.main = .running ∨ s'.main = .hbFailed) → s.mallocs malloc = true →
        watchdogCreate c.wdMode malloc env file s.now s.wd s.hbWatchdog = (status, out, s'.wd) →
          s'.hbWatchdog = (if status = mtcSuccess then out else none) →
            s'.sfWatchdog = s.sfWatchdog → s.fenced = none → s'.fenced = none → s'.crash = s.crash → WatchdogMove c s a s'
  | refreshed (handle : WatchdogHandle) (env : HypercallEnv) (timeout : Nat) (status : MtcStatus) :
      timeout = c.wh ∨ timeout = c.ws → s.hbWatchdog = some handle ∨ s.sfWatchdog = some handle → s.fenced = none →
        watchdogSet env s.now s.wd (some handle) timeout = .returns (status, s'.wd) →
          s'.hbWatchdog = s.hbWatchdog → s'.sfWatchdog = s.sfWatchdog → s'.fenced = none → s'.crash = s.crash →
            WatchdogMove c s a s'
  | hbClosed (handle : WatchdogHandle) (env : HypercallEnv) (file : RecordEnv) :
      a.close? = some (env, file) → s.hbWatchdog = some handle → s.fenced = none →
        watchdogClose env file s.now s.wd (some handle) = .returns s'.wd →
          s'.hbWatchdog = none ∨ (s'.hbWatchdog = s.hbWatchdog ∧ s'.hbPast) → s'.sfWatchdog = s.sfWatchdog →
            s'.fenced = none → s'.crash = s.crash → WatchdogMove c s a s'
  | sfClosed (handle : WatchdogHandle) (env : HypercallEnv) (file : RecordEnv) :
      a.close? = some (env, file) → s.sfWatchdog = some handle → s.fenced = none →
        watchdogClose env file s.now s.wd (some handle) = .returns s'.wd →
          s'.hbWatchdog = s.hbWatchdog → s'.sfWatchdog = none → s'.fenced = none → s'.crash = s.crash →
            WatchdogMove c s a s'
  | fenced (who : SelfFencer) (shutdown : HypercallEnv) (env : Nat → HypercallEnv) :
      a = .selfFence who shutdown env → s.decided who = true → s.fenced = none →
        watchdogSelffence shutdown env s.now s.wd = .returns s'.wd →
          s'.hbWatchdog = s.hbWatchdog → s'.sfWatchdog = s.sfWatchdog → s'.fenced = some s.now → s'.crash = s.crash →
            WatchdogMove c s a s'

/-- Only a daemon that has not crashed takes a step. -/
theorem fencingNext_step (h : fencingNext c s a = some s') : s.crash = none ∧ fencingStep c s a = some s' := by
  unfold fencingNext at h
  split at h
  · rename_i hlive
    exact ⟨Option.isNone_iff_eq_none.1 (Bool.and_eq_true_iff.1 hlive).2, h⟩
  · cases h

theorem afterCall_cases {α : Type} {call : WatchdogCall α} {aborts : DaemonCrash} {k : α → FencingState}
    (h : s.afterCall call aborts k = some s') :
    s.fenced = none ∧ ((∃ result, call = .returns result ∧ s' = k result) ∨
      (call = .aborts ∧ s' = { s with crash := some aborts }) ∨
      (call = .dangles ∧ s' = { s with crash := some .dangling })) := by
  unfold FencingState.afterCall at h
  split at h
  · cases h
  · rename_i hfenced
    refine ⟨by simpa using hfenced, ?_⟩
    cases call with
    | returns result =>
      cases h
      exact .inl ⟨result, rfl, rfl⟩
    | aborts =>
      cases h
      exact .inr (.inl ⟨rfl, rfl⟩)
    | dangles =>
      cases h
      exact .inr (.inr ⟨rfl, rfl⟩)

/-- What a callback can do. -/
theorem objectUpdated_cases {fencing : FencingMode} {handle : Option WatchdogHandle} {disarmed : FencingState}
    {closed : Watchdogs → FencingState} (h : s.objectUpdated env file fencing handle disarmed closed = some s') :
    (s' = s ∧ (fencing = .armed ∨ fencing = .disarmed)) ∨
      (fencing = .none ∧ s' = { s with crash := some .fencingMode }) ∨
      (fencing = .disarmRequested ∧ handle = none ∧ s' = disarmed) ∨
      (fencing = .disarmRequested ∧ disarmed.fenced = none ∧ ∃ addr, handle = some addr ∧
        ((∃ wd, watchdogClose env file s.now s.wd (some addr) = .returns wd ∧ s' = closed wd) ∨
          (watchdogClose env file s.now s.wd (some addr) = .dangles ∧
            s' = { disarmed with crash := some .dangling }))) := by
  unfold FencingState.objectUpdated at h
  cases fencing with
  | none =>
    cases h
    exact .inr (.inl ⟨rfl, rfl⟩)
  | armed =>
    cases h
    exact .inl ⟨rfl, .inl rfl⟩
  | disarmed =>
    cases h
    exact .inl ⟨rfl, .inr rfl⟩
  | disarmRequested =>
    cases handle with
    | none =>
      cases h
      exact .inr (.inr (.inl ⟨rfl, rfl, rfl⟩))
    | some addr =>
      refine .inr (.inr (.inr ?_))
      obtain ⟨hfenced, ⟨wd, hcall, rfl⟩ | ⟨hcall, -⟩ | ⟨hcall, rfl⟩⟩ := afterCall_cases h
      · exact ⟨rfl, hfenced, addr, rfl, .inl ⟨wd, hcall, rfl⟩⟩
      · exact absurd hcall (watchdogClose_not_aborts _)
      · exact ⟨rfl, hfenced, addr, rfl, .inr ⟨hcall, rfl⟩⟩

/-- What a refresh can do. -/
theorem refresh_cases {handle : Option WatchdogHandle} {timeout : Nat} (h : s.refresh env handle timeout = some s') :
    (handle = none ∧ s' = s) ∨ (s.fenced = none ∧ ∃ addr, handle = some addr ∧
      ((∃ status wd, watchdogSet env s.now s.wd (some addr) timeout = .returns (status, wd) ∧ s' = { s with wd }) ∨
        (watchdogSet env s.now s.wd (some addr) timeout = .aborts ∧ s' = { s with crash := some .overdue }) ∨
        (watchdogSet env s.now s.wd (some addr) timeout = .dangles ∧ s' = { s with crash := some .dangling }))) := by
  unfold FencingState.refresh at h
  cases handle with
  | none =>
    cases h
    exact .inl ⟨rfl, rfl⟩
  | some addr =>
    right
    obtain ⟨hfenced, ⟨⟨status, wd⟩, hcall, rfl⟩ | ⟨hcall, rfl⟩ | ⟨hcall, rfl⟩⟩ := afterCall_cases h
    · exact ⟨hfenced, addr, rfl, .inl ⟨status, wd, hcall, rfl⟩⟩
    · exact ⟨hfenced, addr, rfl, .inr (.inl ⟨hcall, rfl⟩)⟩
    · exact ⟨hfenced, addr, rfl, .inr (.inr ⟨hcall, rfl⟩)⟩

theorem refresh_move {handle : Option WatchdogHandle} {timeout : Nat} (hcrash : s.crash = none)
    (htimeout : timeout = c.wh ∨ timeout = c.ws) (hhandle : handle = s.hbWatchdog ∨ handle = s.sfWatchdog)
    (h : s.refresh env handle timeout = some s') : WatchdogMove c s a s' := by
  rcases refresh_cases h with ⟨-, rfl⟩ | ⟨hfenced, addr, rfl, ⟨status, wd, hcall, rfl⟩ | ⟨-, rfl⟩ | ⟨hcall, rfl⟩⟩
  · exact .quiet rfl rfl rfl rfl (by simp [hcrash])
  · exact .refreshed addr env timeout status htimeout (hhandle.imp Eq.symm Eq.symm) hfenced hcall rfl rfl hfenced rfl
  · exact .quiet rfl rfl rfl rfl (by simp)
  · exact .dangled addr rfl rfl rfl rfl hfenced (hhandle.imp Eq.symm Eq.symm) (.inl ⟨_, _, hcall⟩)

/-- Two states with the same instances and owners. -/
structure SameWatchdogs (s t : FencingState) : Prop where
  wd : s.wd = t.wd
  hbWatchdog : s.hbWatchdog = t.hbWatchdog
  sfWatchdog : s.sfWatchdog = t.sfWatchdog
  fenced : s.fenced = t.fenced
  now : s.now = t.now
  crash : s.crash = t.crash

theorem SameWatchdogs.refl (s : FencingState) : SameWatchdogs s s := ⟨rfl, rfl, rfl, rfl, rfl, rfl⟩

theorem SameWatchdogs.quiet (h : SameWatchdogs s' s) (hcrash : s.crash = none) : WatchdogMove c s a s' :=
  .quiet h.wd h.hbWatchdog h.sfWatchdog h.fenced (by simp [h.crash, hcrash])

/-- A step in which a callback may close a watchdog. -/
theorem objectUpdated_move {s₀ t₀ disarmed : FencingState} {fencing : FencingMode} {handle : Option WatchdogHandle}
    {closed : Watchdogs → FencingState} (h : s₀.objectUpdated env file fencing handle disarmed closed = some t₀)
    (hcrash : s.crash = none) (hs : SameWatchdogs s₀ s) (hdisarmed : SameWatchdogs disarmed s) (ht : SameWatchdogs s' t₀)
    (hhandle : handle = s.hbWatchdog ∨ handle = s.sfWatchdog)
    (hclosed : ∀ addr wd, handle = some addr → s.fenced = none →
      watchdogClose env file s.now s.wd (some addr) = .returns wd → SameWatchdogs s' (closed wd) → WatchdogMove c s a s') :
    WatchdogMove c s a s' := by
  rcases objectUpdated_cases h with ⟨rfl, -⟩ | ⟨-, rfl⟩ | ⟨-, -, rfl⟩ |
    ⟨-, hfenced, addr, hvar, ⟨wd, hcall, rfl⟩ | ⟨hcall, rfl⟩⟩
  · exact .quiet (ht.wd.trans hs.wd) (ht.hbWatchdog.trans hs.hbWatchdog) (ht.sfWatchdog.trans hs.sfWatchdog)
      (ht.fenced.trans hs.fenced) (by simp [ht.crash, hs.crash, hcrash])
  · exact .quiet (ht.wd.trans hs.wd) (ht.hbWatchdog.trans hs.hbWatchdog) (ht.sfWatchdog.trans hs.sfWatchdog)
      (ht.fenced.trans hs.fenced) (by simp [ht.crash])
  · exact .quiet (ht.wd.trans hdisarmed.wd) (ht.hbWatchdog.trans hdisarmed.hbWatchdog)
      (ht.sfWatchdog.trans hdisarmed.sfWatchdog) (ht.fenced.trans hdisarmed.fenced) (by simp [ht.crash, hdisarmed.crash, hcrash])
  · rw [hs.now, hs.wd] at hcall
    exact hclosed addr wd hvar (hdisarmed.fenced ▸ hfenced) hcall ht
  · rw [hs.now, hs.wd] at hcall
    exact .dangled addr (ht.wd.trans hdisarmed.wd) (ht.hbWatchdog.trans hdisarmed.hbWatchdog)
      (ht.sfWatchdog.trans hdisarmed.sfWatchdog) (ht.fenced.trans hdisarmed.fenced) (hdisarmed.fenced ▸ hfenced)
      (hhandle.imp (fun h => h.symm.trans hvar) fun h => h.symm.trans hvar) (.inr ⟨_, _, hcall⟩)

/-- Every step does one of these things to the instances and their owners. -/
theorem fencingNext_move (h : fencingNext c s a = some s') : WatchdogMove c s a s' := by
  obtain ⟨hcrash, h⟩ := fencingNext_step h
  cases a with
  | tick ms =>
    cases h
    exact .quiet rfl rfl rfl rfl (by simp [hcrash])
  | sfInitialize1 malloc env file thread =>
    dsimp only [fencingStep] at h
    split at h
    · rename_i hguard
      rw [Bool.and_eq_true, Bool.and_eq_true, decide_eq_true_eq, Option.isNone_iff_eq_none] at hguard
      obtain ⟨⟨hmain, hmalloc⟩, hfenced⟩ := hguard
      rcases hcall : watchdogCreate c.wdMode malloc env file s.now s.wd s.sfWatchdog with ⟨status, out, wd⟩
      rw [hcall] at h
      cases h
      refine .sfCreated malloc env file status rfl hmain ?_ hmalloc hcall rfl hfenced hfenced rfl
      dsimp only
      split <;> rintro ⟨⟩
    · cases h
  | hbInitialize1 malloc env file receive send =>
    dsimp only [fencingStep] at h
    split at h
    · rename_i hguard
      rw [Bool.and_eq_true, Bool.and_eq_true, decide_eq_true_eq, Option.isNone_iff_eq_none] at hguard
      obtain ⟨⟨hmain, hmalloc⟩, hfenced⟩ := hguard
      rcases hcall : watchdogCreate c.wdMode malloc env file s.now s.wd s.hbWatchdog with ⟨status, out, wd⟩
      rw [hcall] at h
      dsimp only at h
      split at h
      · rename_i hstatus
        cases h
        exact .hbCreated malloc out env file status rfl hmain (.inr rfl) hmalloc hcall (if_neg hstatus).symm rfl hfenced
          hfenced rfl
      · rename_i hstatus
        cases h
        refine .hbCreated malloc out env file status rfl hmain ?_ hmalloc hcall (if_pos (not_not.1 hstatus)).symm rfl
          hfenced hfenced rfl
        dsimp only
        split
        · exact .inl rfl
        · exact .inr rfl
    · cases h
  | hbTerminate env file =>
    dsimp only [fencingStep] at h
    split at h
    · split at h
      · cases h
        exact .quiet rfl rfl rfl rfl (by simp [hcrash])
      · rename_i hvar
        obtain ⟨addr, hvar⟩ := Option.ne_none_iff_exists'.1 (Option.isNone_iff_eq_none.not.1 hvar)
        obtain ⟨hfenced, ⟨wd, hcall, rfl⟩ | ⟨hcall, -⟩ | ⟨hcall, rfl⟩⟩ := afterCall_cases h
        · exact .hbClosed addr env file rfl hvar hfenced (hvar ▸ hcall) (.inr ⟨rfl, rfl, .inl rfl⟩) rfl hfenced rfl
        · exact absurd hcall (watchdogClose_not_aborts _)
        · exact .dangled addr rfl rfl rfl rfl hfenced (.inl hvar) (.inr ⟨env, file, hvar ▸ hcall⟩)
    · cases h
  | sfTerminate env file =>
    dsimp only [fencingStep] at h
    split at h
    · split at h
      · cases h
        exact .quiet rfl rfl rfl rfl (by simp [hcrash])
      · rename_i hvar
        obtain ⟨addr, hvar⟩ := Option.ne_none_iff_exists'.1 (Option.isNone_iff_eq_none.not.1 hvar)
        obtain ⟨hfenced, ⟨wd, hcall, rfl⟩ | ⟨hcall, -⟩ | ⟨hcall, rfl⟩⟩ := afterCall_cases h
        · exact .sfClosed addr env file rfl hvar hfenced (hvar ▸ hcall) rfl rfl hfenced rfl
        · exact absurd hcall (watchdogClose_not_aborts _)
        · exact .dangled addr rfl rfl rfl rfl hfenced (.inr hvar) (.inr ⟨env, file, hvar ▸ hcall⟩)
    · cases h
  | hbRefresh env =>
    dsimp only [fencingStep] at h
    split at h
    · exact refresh_move hcrash (.inl rfl) (.inl rfl) h
    · cases h
  | sfRefresh env =>
    dsimp only [fencingStep] at h
    split at h
    · exact refresh_move hcrash (.inr rfl) (.inr rfl) h
    · cases h
  | selfFence who shutdown env =>
    dsimp only [fencingStep] at h
    split at h
    · rename_i hdecided
      obtain ⟨hfenced, ⟨wd, hcall, rfl⟩ | ⟨hcall, rfl⟩ | ⟨hcall, rfl⟩⟩ := afterCall_cases h
      · exact .fenced who shutdown env rfl hdecided hfenced hcall rfl rfl rfl rfl
      · exact .quiet rfl rfl rfl rfl (by simp)
      · exact absurd hcall (watchdogSelffence_not_dangles _ _ _)
    · cases h
  | smUpdated =>
    cases h
    unfold FencingState.smSmUpdated
    split <;> exact .quiet rfl rfl rfl rfl (by simp [hcrash])
  | hbUpdated env file =>
    refine objectUpdated_move h hcrash (.refl s) ⟨rfl, rfl, rfl, rfl, rfl, rfl⟩ (.refl s') (.inl rfl) ?_
    intro addr wd hvar hfenced hcall ht
    exact .hbClosed addr env file rfl hvar hfenced (ht.wd ▸ hcall) (.inl ht.hbWatchdog) ht.sfWatchdog (ht.fenced.trans hfenced)
      ht.crash
  | sfUpdated env file =>
    refine objectUpdated_move h hcrash (.refl s) ⟨rfl, rfl, rfl, rfl, rfl, rfl⟩ (.refl s') (.inr rfl) ?_
    intro addr wd hvar hfenced hcall ht
    exact .sfClosed addr env file rfl hvar hfenced (ht.wd ▸ hcall) ht.hbWatchdog ht.sfWatchdog (ht.fenced.trans hfenced)
      ht.crash
  | requestSm =>
    dsimp only [fencingStep] at h
    split at h
    · cases h
      unfold FencingState.smSmUpdated
      split <;> exact .quiet rfl rfl rfl rfl (by simp [hcrash])
    · cases h
  | requestHb env file =>
    dsimp only [fencingStep] at h
    split at h
    · obtain ⟨t, ht, rfl⟩ := Option.map_eq_some_iff.1 h
      refine objectUpdated_move ht hcrash ⟨rfl, rfl, rfl, rfl, rfl, rfl⟩ ⟨rfl, rfl, rfl, rfl, rfl, rfl⟩
        ⟨rfl, rfl, rfl, rfl, rfl, rfl⟩ (.inl rfl) ?_
      intro addr wd hvar hfenced hcall ht
      exact .hbClosed addr env file rfl hvar hfenced (ht.wd ▸ hcall) (.inl ht.hbWatchdog) ht.sfWatchdog
        (ht.fenced.trans hfenced) ht.crash
    · cases h
  | requestSf env file =>
    dsimp only [fencingStep] at h
    split at h
    · obtain ⟨t, ht, rfl⟩ := Option.map_eq_some_iff.1 h
      refine objectUpdated_move ht hcrash ⟨rfl, rfl, rfl, rfl, rfl, rfl⟩ ⟨rfl, rfl, rfl, rfl, rfl, rfl⟩
        ⟨rfl, rfl, rfl, rfl, rfl, rfl⟩ (.inr rfl) ?_
      intro addr wd hvar hfenced hcall ht
      exact .sfClosed addr env file rfl hvar hfenced (ht.wd ▸ hcall) ht.hbWatchdog ht.sfWatchdog
        (ht.fenced.trans hfenced) ht.crash
    · cases h
  | disarm =>
    dsimp only [fencingStep] at h
    split at h
    · split at h
      · cases h
        exact .quiet rfl rfl rfl rfl (by simp [hcrash])
      · cases h
        exact .quiet rfl rfl rfl rfl (by simp [hcrash])
    · cases h
  | _ =>
    -- the steps that only change a mode, a phase or where a thread is
    dsimp only [fencingStep] at h
    split at h
    · cases h
      first
        | exact .quiet rfl rfl rfl rfl (by simp [hcrash])
        | (split <;> exact .quiet rfl rfl rfl rfl (by simp [hcrash]))
    · cases h

/-! ## The main thread -/

/-- The main thread and the heartbeat thread have not moved. -/
def SameMain (s s' : FencingState) : Prop := s'.main = s.main ∧ s'.hbReceive = s.hbReceive

/-- The main thread only goes on. -/
structure MainMono (s s' : FencingState) : Prop where
  past : s.hbPast → s'.hbPast
  start : s'.main = .start → s.main = .start
  ready : s'.main = .sfReady → s.main = .start ∨ s.main = .sfReady

theorem SameMain.mono (h : SameMain s s') : MainMono s s' := by
  obtain ⟨hmain, hreceive⟩ := h
  constructor
  · rintro ⟨hover, hpast⟩
    exact ⟨hreceive.trans hover, by rw [hmain]; exact hpast⟩
  · intro hstart
    exact hmain.symm.trans hstart
  · intro hready
    exact .inr (hmain.symm.trans hready)

theorem afterCall_main {α : Type} {call : WatchdogCall α} {aborts : DaemonCrash} {k : α → FencingState}
    (h : s.afterCall call aborts k = some s') (hk : ∀ result, SameMain s (k result)) : SameMain s s' := by
  obtain ⟨-, ⟨result, -, rfl⟩ | ⟨-, rfl⟩ | ⟨-, rfl⟩⟩ := afterCall_cases h
  · exact hk result
  · exact ⟨rfl, rfl⟩
  · exact ⟨rfl, rfl⟩

theorem objectUpdated_main {fencing : FencingMode} {handle : Option WatchdogHandle} {disarmed : FencingState}
    {closed : Watchdogs → FencingState} (h : s.objectUpdated env file fencing handle disarmed closed = some s')
    (hd : SameMain s disarmed) (hc : ∀ wd, SameMain s (closed wd)) : SameMain s s' := by
  rcases objectUpdated_cases h with ⟨rfl, -⟩ | ⟨-, rfl⟩ | ⟨-, -, rfl⟩ | ⟨-, -, addr, -, ⟨wd, -, rfl⟩ | ⟨-, rfl⟩⟩
  · exact ⟨rfl, rfl⟩
  · exact ⟨rfl, rfl⟩
  · exact hd
  · exact hc wd
  · exact hd

theorem refresh_main {handle : Option WatchdogHandle} {timeout : Nat} (h : s.refresh env handle timeout = some s') :
    SameMain s s' := by
  rcases refresh_cases h with ⟨-, rfl⟩ | ⟨-, addr, -, ⟨status, wd, -, rfl⟩ | ⟨-, rfl⟩ | ⟨-, rfl⟩⟩
  · exact ⟨rfl, rfl⟩
  · exact ⟨rfl, rfl⟩
  · exact ⟨rfl, rfl⟩
  · exact ⟨rfl, rfl⟩

/-- Before its termination `main` is not behind that of the heartbeat. -/
theorem not_hbPast (h : s.main = .start ∨ s.main = .sfReady ∨ s.main = .running ∨ s.main = .hbFailed) : ¬ s.hbPast := by
  rintro ⟨-, hpast⟩
  rcases h with h | h | h | h
  · rw [h] at hpast
    exact hpast.elim nofun nofun
  · rw [h] at hpast
    exact hpast.elim nofun nofun
  · rw [h] at hpast
    exact hpast.elim nofun nofun
  · rw [h] at hpast
    exact hpast.elim nofun nofun

theorem fencingNext_main (h : fencingNext c s a = some s') : MainMono s s' := by
  replace h := (fencingNext_step h).2
  cases a with
  | sfInitialize1 malloc env file thread =>
    dsimp only [fencingStep] at h
    split at h
    · rename_i hguard
      have hmain : s.main = .start := by
        rw [Bool.and_eq_true, Bool.and_eq_true, decide_eq_true_eq] at hguard
        exact hguard.1.1
      exact ⟨fun hpast => absurd hpast (not_hbPast (.inl hmain)), fun _ => hmain, fun _ => .inl hmain⟩
    · cases h
  | hbInitialize1 malloc env file receive send =>
    dsimp only [fencingStep] at h
    split at h
    · rename_i hguard
      have hmain : s.main = .sfReady := by
        rw [Bool.and_eq_true, Bool.and_eq_true, decide_eq_true_eq] at hguard
        exact hguard.1.1
      refine ⟨fun hpast => absurd hpast (not_hbPast (.inr (.inl hmain))), ?_, fun _ => .inr hmain⟩
      intro hstart
      split at h
      · cases h
        cases hstart
      · cases h
        dsimp only at hstart
        split at hstart <;> cases hstart
    · cases h
  | smTerminate =>
    dsimp only [fencingStep] at h
    split at h
    · rename_i hmain
      cases h
      exact ⟨fun hpast => absurd hpast (not_hbPast (.inr (.inr (.inl hmain)))), nofun, nofun⟩
    · cases h
  | hbTerminate env file =>
    dsimp only [fencingStep] at h
    split at h
    · have hsame : SameMain { s with hbReceive := false, main := .hbStopped } s' := by
        split at h
        · cases h
          exact ⟨rfl, rfl⟩
        · exact afterCall_main h fun _ => ⟨rfl, rfl⟩
      have hmono := hsame.mono
      refine ⟨fun _ => hmono.past ⟨rfl, .inl rfl⟩, ?_, ?_⟩
      · intro hstart
        cases hmono.start hstart
      · intro hready
        exact (hmono.ready hready).elim nofun nofun
    · cases h
  | sfTerminate env file =>
    dsimp only [fencingStep] at h
    split at h
    · have hsame : SameMain { s with main := if s.main = .hbFailed then .failed else .stopped } s' := by
        split at h
        · cases h
          exact ⟨rfl, rfl⟩
        · exact afterCall_main h fun _ => ⟨rfl, rfl⟩
      have hmono := hsame.mono
      by_cases hfailed : s.main = .hbFailed
      · rw [if_pos hfailed] at hmono
        refine ⟨fun hpast => absurd hpast (not_hbPast (.inr (.inr (.inr hfailed)))), ?_, ?_⟩
        · intro hstart
          cases hmono.start hstart
        · intro hready
          exact (hmono.ready hready).elim nofun nofun
      · rw [if_neg hfailed] at hmono
        refine ⟨fun hpast => hmono.past ⟨hpast.1, .inr rfl⟩, ?_, ?_⟩
        · intro hstart
          cases hmono.start hstart
        · intro hready
          exact (hmono.ready hready).elim nofun nofun
    · cases h
  | hbRefresh env | sfRefresh env =>
    dsimp only [fencingStep] at h
    split at h
    · exact (refresh_main h).mono
    · cases h
  | selfFence who shutdown env =>
    dsimp only [fencingStep] at h
    split at h
    · have hsame : SameMain s s' := afterCall_main h fun _ => ⟨rfl, rfl⟩
      exact hsame.mono
    · cases h
  | smUpdated =>
    cases h
    apply SameMain.mono
    unfold FencingState.smSmUpdated
    split <;> exact ⟨rfl, rfl⟩
  | hbUpdated env file =>
    have hsame : SameMain s s' := objectUpdated_main h ⟨rfl, rfl⟩ fun _ => ⟨rfl, rfl⟩
    exact hsame.mono
  | sfUpdated env file =>
    have hsame : SameMain s s' := objectUpdated_main h ⟨rfl, rfl⟩ fun _ => ⟨rfl, rfl⟩
    exact hsame.mono
  | requestSm =>
    dsimp only [fencingStep] at h
    split at h
    · cases h
      apply SameMain.mono
      unfold FencingState.smSmUpdated
      split <;> exact ⟨rfl, rfl⟩
    · cases h
  | requestHb env file =>
    dsimp only [fencingStep] at h
    split at h
    · obtain ⟨t, ht, rfl⟩ := Option.map_eq_some_iff.1 h
      have hsame : SameMain { s with hbFencing := requestDisarm s.hbFencing } t :=
        objectUpdated_main ht ⟨rfl, rfl⟩ fun _ => ⟨rfl, rfl⟩
      exact SameMain.mono hsame
    · cases h
  | requestSf env file =>
    dsimp only [fencingStep] at h
    split at h
    · obtain ⟨t, ht, rfl⟩ := Option.map_eq_some_iff.1 h
      have hsame : SameMain { s with sfFencing := requestDisarm s.sfFencing } t :=
        objectUpdated_main ht ⟨rfl, rfl⟩ fun _ => ⟨rfl, rfl⟩
      exact SameMain.mono hsame
    · cases h
  | tick =>
    cases h
    exact SameMain.mono ⟨rfl, rfl⟩
  | disarm =>
    dsimp only [fencingStep] at h
    split at h
    · split at h <;> cases h <;> exact SameMain.mono ⟨rfl, rfl⟩
    · cases h
  | waitSm | waitHb | waitSf =>
    dsimp only [fencingStep] at h
    split at h
    · cases h
      split <;> exact SameMain.mono ⟨rfl, rfl⟩
    · cases h
  | armFencing | setStarted | setSmPhase | smAbort | checkFencing =>
    dsimp only [fencingStep] at h
    split at h
    · cases h
      exact SameMain.mono ⟨rfl, rfl⟩
    · cases h

/-! ## Owners -/

/-- The instances are those of the two handles; `hb_initialize(-1)` closes one without clearing its handle. Nothing
is asked of the timers once `watchdog_selffence` has set them. -/
structure OwnersInv (s : FencingState) : Prop where
  table : s.fenced = none → TableInv s.wd
  handles : (s.wd.instances.map (·.handle)).Nodup
  owned : ∀ i ∈ s.wd.instances, s.hbWatchdog = some i.handle ∨ s.sfWatchdog = some i.handle
  hb : ∀ handle, s.hbWatchdog = some handle → ¬ s.hbPast → handle ∈ s.wd.instances.map (·.handle)
  sf : ∀ handle, s.sfWatchdog = some handle → handle ∈ s.wd.instances.map (·.handle)
  apart : ∀ handle, s.hbWatchdog = some handle → s.sfWatchdog ≠ some handle
  start : s.main = .start → s.sfWatchdog = none
  ready : s.main = .start ∨ s.main = .sfReady → s.hbWatchdog = none

theorem OwnersInv.initial (timers : WatchdogTimers) (idFile : Option (List Char)) :
    OwnersInv (.initial timers idFile) := by
  refine ⟨fun _ => ⟨List.nodup_nil, fun _ => List.nodup_nil, ?_, ?_, fun _ => rfl⟩, List.nodup_nil, ?_, ?_, ?_, ?_, fun _ => rfl,
    fun _ => rfl⟩
  · exact fun _ => List.forall_mem_nil _
  · exact fun _ => List.forall_mem_nil _
  · exact List.forall_mem_nil _
  · rintro handle ⟨⟩
  · rintro handle ⟨⟩
  · rintro handle ⟨⟩

/-- What one table has of an instance, another one that shows the same has as well. -/
theorem mem_of_map_eq {β : Type} {f : WatchdogInstance → β} {instances instances' : List WatchdogInstance}
    (h : instances'.map f = instances.map f) {i : WatchdogInstance} (hi : i ∈ instances') : ∃ j ∈ instances, f j = f i := by
  have hmem : f i ∈ instances.map f := h ▸ List.mem_map_of_mem hi
  exact List.mem_map.1 hmem

/-- The handles of the table and of their owners stay. -/
theorem OwnersInv.congr (hinv : OwnersInv s) (htable : s'.fenced = none → TableInv s'.wd)
    (hhandles : s'.wd.instances.map (·.handle) = s.wd.instances.map (·.handle)) (hhb : s'.hbWatchdog = s.hbWatchdog)
    (hsf : s'.sfWatchdog = s.sfWatchdog) (hmain : MainMono s s') : OwnersInv s' := by
  constructor
  · exact htable
  · rw [hhandles]
    exact hinv.handles
  · intro i hi
    obtain ⟨j, hj, hsame⟩ := mem_of_map_eq hhandles hi
    rw [hhb, hsf, ← hsame]
    exact hinv.owned j hj
  · rw [hhandles, hhb]
    exact fun handle hvar hpast => hinv.hb handle hvar fun h => hpast (hmain.past h)
  · rw [hhandles, hsf]
    exact hinv.sf
  · rw [hhb, hsf]
    exact hinv.apart
  · rw [hsf]
    exact fun h => hinv.start (hmain.start h)
  · rw [hhb]
    exact fun h => hinv.ready (h.elim (fun h => .inl (hmain.start h)) hmain.ready)

/-- Without owners the table is empty. -/
theorem OwnersInv.empty (hinv : OwnersInv s) (hhb : s.hbWatchdog = none) (hsf : s.sfWatchdog = none) :
    s.wd.instances = [] := by
  rw [List.eq_nil_iff_forall_not_mem]
  intro i hi
  have howned := hinv.owned i hi
  rw [hhb, hsf] at howned
  exact howned.elim nofun nofun

/-- What `malloc` gives is the handle of no instance. -/
theorem mallocs_free {malloc : Option WatchdogHandle} (h : s.mallocs malloc = true) :
    ∀ addr, malloc = some addr → addr ∉ s.wd.instances.map (·.handle) := by
  rintro addr rfl hmem
  obtain ⟨i, hi, rfl⟩ := List.mem_map.1 hmem
  have hne := List.all_eq_true.1 (Option.all_eq_true _ _ |>.1 h _ rfl) i hi
  exact of_decide_eq_true hne rfl

theorem OwnersInv.sfCreated {malloc out : Option WatchdogHandle} {status : MtcStatus} (hinv : OwnersInv s)
    (hstart : s.main = .start) (hleft : s'.main ≠ .start) (hmalloc : s.mallocs malloc = true)
    (hcall : watchdogCreate c.wdMode malloc env file s.now s.wd s.sfWatchdog = (status, out, s'.wd))
    (hout : s'.sfWatchdog = out) (hhb : s'.hbWatchdog = s.hbWatchdog) (hfenced : s.fenced = none) : OwnersInv s' := by
  obtain ⟨htable, -, -, hresult⟩ := watchdogCreate_spec (hinv.table hfenced) (mallocs_free hmalloc) hcall
  have hnone : s.hbWatchdog = none := hinv.ready (.inl hstart)
  have hempty : s.wd.instances = [] := hinv.empty hnone (hinv.start hstart)
  refine ⟨fun _ => htable, htable.handles, ?_, ?_, ?_, ?_, fun h => absurd h hleft, ?_⟩
  · intro i hi
    rcases hresult with ⟨-, new, -, rfl, hinstances, -⟩ | ⟨-, -, hinstances, -⟩
    · rw [hinstances, hempty, List.nil_append, List.mem_singleton] at hi
      rw [hout, hi]
      exact .inr rfl
    · rw [hinstances, hempty] at hi
      cases hi
  · intro handle hvar
    rw [hhb, hnone] at hvar
    cases hvar
  · intro handle hvar
    rw [hout] at hvar
    rcases hresult with ⟨-, new, -, rfl, hinstances, -⟩ | ⟨-, hkept | hkept, -⟩
    · cases hvar
      rw [hinstances]
      exact List.mem_map_of_mem (List.mem_append_right _ (List.mem_singleton_self new))
    · rw [hkept, hinv.start hstart] at hvar
      cases hvar
    · rw [hkept] at hvar
      cases hvar
  · intro handle hvar
    rw [hhb, hnone] at hvar
    cases hvar
  · intro h
    rw [hhb]
    exact hnone

theorem OwnersInv.hbCreated {malloc out : Option WatchdogHandle} {status : MtcStatus} (hinv : OwnersInv s)
    (hready : s.main = .sfReady) (hmain : s'.main = .running ∨ s'.main = .hbFailed) (hmalloc : s.mallocs malloc = true)
    (hcall : watchdogCreate c.wdMode malloc env file s.now s.wd s.hbWatchdog = (status, out, s'.wd))
    (hout : s'.hbWatchdog = if status = mtcSuccess then out else none) (hsf : s'.sfWatchdog = s.sfWatchdog)
    (hfenced : s.fenced = none) : OwnersInv s' := by
  obtain ⟨htable, -, -, hresult⟩ := watchdogCreate_spec (hinv.table hfenced) (mallocs_free hmalloc) hcall
  have hnone : s.hbWatchdog = none := hinv.ready (.inr hready)
  have hlater : ¬ (s'.main = .start ∨ s'.main = .sfReady) := by
    rcases hmain with hmain | hmain
    · rw [hmain]
      decide
    · rw [hmain]
      decide
  have hold : ∀ i ∈ s.wd.instances, s.sfWatchdog = some i.handle := by
    intro i hi
    have howned := hinv.owned i hi
    rw [hnone] at howned
    exact howned.resolve_left nofun
  rcases hresult with ⟨hstatus, new, rfl, rfl, hinstances, -⟩ | ⟨hstatus, -, hinstances, -⟩
  · rw [if_pos hstatus] at hout
    refine ⟨fun _ => htable, htable.handles, ?_, ?_, ?_, ?_, fun h => absurd (.inl h) hlater, fun h => absurd h hlater⟩
    · intro i hi
      rw [hinstances] at hi
      rcases List.mem_append.1 hi with hi | hi
      · exact .inr (hsf.trans (hold i hi))
      · rw [List.mem_singleton.1 hi]
        exact .inl hout
    · intro handle hvar _
      rw [hout] at hvar
      cases hvar
      rw [hinstances]
      exact List.mem_map_of_mem (List.mem_append_right _ (List.mem_singleton_self new))
    · intro handle hvar
      rw [hsf] at hvar
      rw [hinstances, List.map_append]
      exact List.mem_append_left _ (hinv.sf handle hvar)
    · intro handle hvar hother
      rw [hout] at hvar
      cases hvar
      rw [hsf] at hother
      exact mallocs_free hmalloc new.handle rfl (hinv.sf new.handle hother)
  · rw [if_neg hstatus] at hout
    refine ⟨fun _ => htable, htable.handles, ?_, ?_, ?_, ?_, fun h => absurd (.inl h) hlater, fun h => absurd h hlater⟩
    · intro i hi
      rw [hinstances] at hi
      exact .inr (hsf.trans (hold i hi))
    · intro handle hvar
      rw [hout] at hvar
      cases hvar
    · rw [hsf, hinstances]
      exact hinv.sf
    · intro handle hvar
      rw [hout] at hvar
      cases hvar

/-- One owner closes its watchdog. -/
theorem OwnersInv.closed {handle : WatchdogHandle} (hinv : OwnersInv s) (hmain : MainMono s s') (hfenced : s.fenced = none)
    (hcall : watchdogClose env file s.now s.wd (some handle) = .returns s'.wd)
    (hvars : (s.hbWatchdog = some handle ∧ (s'.hbWatchdog = none ∨ (s'.hbWatchdog = s.hbWatchdog ∧ s'.hbPast)) ∧
        s'.sfWatchdog = s.sfWatchdog) ∨
      (s.sfWatchdog = some handle ∧ s'.sfWatchdog = none ∧ s'.hbWatchdog = s.hbWatchdog)) : OwnersInv s' := by
  obtain ⟨i, -, -, htable, -, hmem, -⟩ := watchdogClose_spec (hinv.table hfenced) hcall
  have hstays : ∀ other, other ≠ handle → other ∈ s.wd.instances.map (·.handle) → other ∈ s'.wd.instances.map (·.handle) := by
    intro other hne hother
    obtain ⟨j, hj, rfl⟩ := List.mem_map.1 hother
    exact List.mem_map_of_mem ((hmem j).2 ⟨hj, hne⟩)
  rcases hvars with ⟨hvar, hhb, hsf⟩ | ⟨hvar, hsf, hhb⟩
  · have hgone : ∀ other, s'.hbWatchdog = some other → other = handle ∧ s'.hbPast := by
      intro other hother
      rcases hhb with hhb | ⟨hhb, hpast⟩
      · rw [hhb] at hother
        cases hother
      · rw [hhb, hvar] at hother
        exact ⟨(Option.some.inj hother).symm, hpast⟩
    have hapart : s.sfWatchdog ≠ some handle := hinv.apart handle hvar
    refine ⟨fun _ => htable, htable.handles, ?_, ?_, ?_, ?_, ?_, ?_⟩
    · intro j hj
      obtain ⟨hj, hne⟩ := (hmem j).1 hj
      rw [hsf]
      rcases hinv.owned j hj with hown | hown
      · rw [hvar] at hown
        exact absurd (Option.some.inj hown).symm hne
      · exact .inr hown
    · intro other hother hnot
      exact absurd (hgone other hother).2 hnot
    · intro other hother
      rw [hsf] at hother
      refine hstays other ?_ (hinv.sf other hother)
      rintro rfl
      exact hapart hother
    · intro other hother
      rw [(hgone other hother).1, hsf]
      exact hapart
    · intro h
      rw [hsf]
      exact hinv.start (hmain.start h)
    · intro h
      have hnone : s.hbWatchdog = none := hinv.ready (h.elim (fun h => .inl (hmain.start h)) hmain.ready)
      rw [hvar] at hnone
      cases hnone
  · refine ⟨fun _ => htable, htable.handles, ?_, ?_, ?_, ?_, fun _ => hsf, ?_⟩
    · intro j hj
      obtain ⟨hj, hne⟩ := (hmem j).1 hj
      rw [hhb]
      rcases hinv.owned j hj with hown | hown
      · exact .inl hown
      · rw [hvar] at hown
        exact absurd (Option.some.inj hown).symm hne
    · intro other hother hnot
      rw [hhb] at hother
      refine hstays other ?_ (hinv.hb other hother fun h => hnot (hmain.past h))
      rintro rfl
      exact hinv.apart other hother hvar
    · intro other hother
      rw [hsf] at hother
      cases hother
    · intro other _
      rw [hsf]
      exact nofun
    · intro h
      rw [hhb]
      exact hinv.ready (h.elim (fun h => .inl (hmain.start h)) hmain.ready)

theorem refreshTimeout_ne_zero {timeout : Nat} (hwh : c.wh ≠ 0) (hws : c.ws ≠ 0) (h : timeout = c.wh ∨ timeout = c.ws) :
    timeout ≠ 0 := by
  rcases h with rfl | rfl
  · exact hwh
  · exact hws

/-- A step leaves the instances to their owners. -/
theorem OwnersInv.next (hwh : c.wh ≠ 0) (hws : c.ws ≠ 0) (hinv : OwnersInv s) (h : fencingNext c s a = some s') :
    OwnersInv s' := by
  have hmain := fencingNext_main h
  cases fencingNext_move h with
  | quiet hwd hhb hsf hfenced _ | dangled _ hwd hhb hsf hfenced _ _ _ =>
    refine hinv.congr ?_ (by rw [hwd]) hhb hsf hmain
    rw [hwd, hfenced]
    exact hinv.table
  | sfCreated malloc env file status _ hstart hleft hmalloc hcall hhb hfenced _ _ =>
    exact hinv.sfCreated hstart hleft hmalloc hcall rfl hhb hfenced
  | hbCreated malloc out env file status _ hready hnext hmalloc hcall hout hsf hfenced _ _ =>
    exact hinv.hbCreated hready hnext hmalloc hcall hout hsf hfenced
  | refreshed handle env timeout status htimeout _ hfenced hcall hhb hsf _ _ =>
    obtain ⟨i, -, -, htable, -, -, hhandles, -⟩ :=
      watchdogSet_spec (hinv.table hfenced) (refreshTimeout_ne_zero hwh hws htimeout) hcall
    exact hinv.congr (fun _ => htable) hhandles hhb hsf hmain
  | hbClosed handle env file _ hvar hfenced hcall hhb hsf _ _ =>
    exact hinv.closed hmain hfenced hcall (.inl ⟨hvar, hhb, hsf⟩)
  | sfClosed handle env file _ hvar hfenced hcall hhb hsf _ _ =>
    exact hinv.closed hmain hfenced hcall (.inr ⟨hvar, hsf, hhb⟩)
  | fenced who shutdown env _ _ hnone hcall hhb hsf hfenced _ =>
    obtain ⟨-, -, hinstances, -⟩ := watchdogSelffence_spec (hinv.table hnone) hcall
    refine hinv.congr ?_ (by rw [hinstances]) hhb hsf hmain
    rw [hfenced]
    exact nofun

/-- A call finds the instance of its handle, before `hb_initialize(-1)`. -/
theorem OwnersInv.dangled (hinv : OwnersInv s) (h : fencingNext c s a = some s') (hcrash : s'.crash = some .dangling) :
    s'.hbPast := by
  have hmain := fencingNext_main h
  have hnone := (fencingNext_step h).1
  have hsame : s'.crash ≠ s.crash := by
    rw [hcrash, hnone]
    exact nofun
  cases fencingNext_move h with
  | quiet _ _ _ _ hother => exact absurd hcrash hother
  | dangled handle _ _ _ _ hfenced hvar hcall =>
    have hnot : handle ∉ s.wd.instances.map (·.handle) := by
      rcases hcall with ⟨env, timeout, hcall⟩ | ⟨env, file, hcall⟩
      · exact watchdogSet_dangles (hinv.table hfenced) hcall
      · exact (watchdogClose_dangles (hinv.table hfenced)).1 hcall
    rcases hvar with hvar | hvar
    · by_contra hpast
      exact hnot (hinv.hb handle hvar fun h => hpast (hmain.past h))
    · exact absurd (hinv.sf handle hvar) hnot
  | sfCreated _ _ _ _ _ _ _ _ _ _ _ _ hcrash' | hbCreated _ _ _ _ _ _ _ _ _ _ _ _ _ _ hcrash'
  | refreshed _ _ _ _ _ _ _ _ _ _ _ hcrash' | hbClosed _ _ _ _ _ _ _ _ _ _ hcrash'
  | sfClosed _ _ _ _ _ _ _ _ _ _ hcrash' | fenced _ _ _ _ _ _ _ _ _ _ hcrash' => exact absurd hcrash' hsame

/-- The handles in the table are among the two of the owners. -/
theorem OwnersInv.length_le (hinv : OwnersInv s) : s.wd.instances.length ≤ 2 := by
  have hsub : s.wd.instances.map (·.handle) ⊆ s.hbWatchdog.toList ++ s.sfWatchdog.toList := by
    intro handle hmem
    obtain ⟨i, hi, rfl⟩ := List.mem_map.1 hmem
    rw [List.mem_append, Option.mem_toList, Option.mem_toList]
    exact hinv.owned i hi
  have hlen := (hinv.handles.subperm hsub).length_le
  have hhb : s.hbWatchdog.toList.length ≤ 1 := by cases s.hbWatchdog <;> simp
  have hsf : s.sfWatchdog.toList.length ≤ 1 := by cases s.sfWatchdog <;> simp
  rw [List.length_map, List.length_append] at hlen
  omega

theorem OwnersInv.of_reach {timers : WatchdogTimers} {idFile : Option (List Char)} {ok : FencingState → FencingAction → Prop}
    (hwh : c.wh ≠ 0) (hws : c.ws ≠ 0) (h : (fencing c timers idFile).Reach ok s) :
    OwnersInv s ∧ (s.crash = some .dangling → s.hbPast) := by
  refine h.inv (I := fun s => OwnersInv s ∧ (s.crash = some .dangling → s.hbPast)) ?_ ?_
  · rintro _ rfl
    exact ⟨.initial timers idFile, nofun⟩
  · rintro s t a ⟨hinv, -⟩ _ hn
    exact ⟨hinv.next hwh hws hn, hinv.dangled hn⟩

/-- A hypercall that goes through. -/
def clearHypercall : HypercallEnv := ⟨true, true, true, false, false, true⟩

/-- File operations that go through. -/
def openFile : RecordEnv := ⟨true, true⟩

/-- The timeouts of the daemon on the hypervisor. -/
def hypervisorConfig : FencingConfig := ⟨"HYPERVISOR".toList, 30, 45⟩

/-- The daemon starts, arms fencing and refreshes its watchdogs; ten seconds go by. -/
def armedRun : List FencingAction := [.sfInitialize1 (some 0x1000) clearHypercall openFile true,
  .hbInitialize1 (some 0x2000) clearHypercall openFile true true, .armFencing, .setStarted, .hbRefresh clearHypercall,
  .sfRefresh clearHypercall, .tick 10000]

end Xha
