/-
What disarming, self-fencing and the cleanup of the daemon's watchdogs come to over its runs, if the hypercalls go
through. When disarm_fencing has been answered the timers of the domain are those from before the daemon
(`disarm_restores_timers`), and so they are behind a cleanupwatchdog when the daemon has died
(`cleanup_restores_timers`): a timer that belongs to no instance is as it was (`TimersKept`), a disarmed object has no
instance (`ModesInv`), and the file names the instances there are. A host that fences itself is down within `WD_FENCE`
(`self_fence_brings_host_down`).
-/
import Xha.Watchdog.Owners

namespace Xha

open Transition

variable {c : FencingConfig} {s s' : FencingState} {a : FencingAction} {env : HypercallEnv} {file : RecordEnv}
  {timers : WatchdogTimers} {idFile : Option (List Char)}

/-! ## Fencing modes -/

/-- disarm_fencing has gone through the SM object. -/
def DisarmPc.askedSm : DisarmPc → Bool
  | .idle | .requestSm => false
  | .requestHb | .requestSf | .waitSm | .waitHb | .waitSf | .returned => true

/-- It has gone through the HB object. -/
def DisarmPc.askedHb : DisarmPc → Bool
  | .idle | .requestSm | .requestHb => false
  | .requestSf | .waitSm | .waitHb | .waitSf | .returned => true

/-- It has gone through the SF object. -/
def DisarmPc.askedSf : DisarmPc → Bool
  | .idle | .requestSm | .requestHb | .requestSf => false
  | .waitSm | .waitHb | .waitSf | .returned => true

/-- The mode of an object with a watchdog between its lock sections. -/
def ObjectMode (fencing : FencingMode) (handle : Option WatchdogHandle) : Prop :=
  fencing = .armed ∨ (fencing = .disarmed ∧ handle = none)

theorem ObjectMode.idle {fencing : FencingMode} {handle : Option WatchdogHandle} (h : ObjectMode fencing handle) :
    fencing = .armed ∨ fencing = .disarmed := h.imp_right And.left

/-- Between the lock sections no disarm is left requested, and a disarmed object has no watchdog. disarm_fencing comes
behind `arm_fencing`, so what it has disarmed stays disarmed. -/
structure ModesInv (s : FencingState) : Prop where
  sm : s.smvarFencing = s.smFencing
  known : s.smFencing ≠ .disarmRequested
  hb : ObjectMode s.hbFencing s.hbWatchdog
  sf : ObjectMode s.sfFencing s.sfWatchdog
  early : s.threads = false → s.hbFencing = .armed ∧ s.sfFencing = .armed ∧ s.sm = .starting ∧ s.disarm = .idle
  starting : s.sm ≠ .started → (s.phase = .starting ∨ s.phase = .aborted) ∧ s.disarm = .idle
  askedSm : s.disarm.askedSm = true → s.smFencing = .disarmed
  askedHb : s.disarm.askedHb = true → s.hbFencing = .disarmed
  askedSf : s.disarm.askedSf = true → s.sfFencing = .disarmed

theorem ModesInv.initial (timers : WatchdogTimers) (idFile : Option (List Char)) : ModesInv (.initial timers idFile) where
  sm := rfl
  known := nofun
  hb := .inl rfl
  sf := .inl rfl
  early _ := ⟨rfl, rfl, rfl, rfl⟩
  starting _ := ⟨.inl rfl, rfl⟩
  askedSm := nofun
  askedHb := nofun
  askedSf := nofun

/-- A call of watchdog.c that comes back. -/
theorem afterCall_modes {α : Type} {call : WatchdogCall α} {aborts : DaemonCrash} {k : α → FencingState}
    (h : s.afterCall call aborts k = some s') (hcrash : s'.crash = none) (hk : ∀ result, ModesInv (k result)) :
    ModesInv s' := by
  obtain ⟨-, ⟨result, -, rfl⟩ | ⟨-, rfl⟩ | ⟨-, rfl⟩⟩ := afterCall_cases h
  · exact hk result
  · cases hcrash
  · cases hcrash

theorem refresh_modes {handle : Option WatchdogHandle} {timeout : Nat} (hinv : ModesInv s)
    (h : s.refresh env handle timeout = some s') (hcrash : s'.crash = none) : ModesInv s' := by
  unfold FencingState.refresh at h
  split at h
  · cases h
    exact hinv
  · refine afterCall_modes h hcrash fun result => ?_
    exact ⟨hinv.sm, hinv.known, hinv.hb, hinv.sf, hinv.early, hinv.starting, hinv.askedSm, hinv.askedHb, hinv.askedSf⟩

/-- A callback that finds no request does nothing. -/
theorem objectUpdated_idle {fencing : FencingMode} {handle : Option WatchdogHandle} {disarmed : FencingState}
    {closed : Watchdogs → FencingState} (hmode : fencing = .armed ∨ fencing = .disarmed)
    (h : s.objectUpdated env file fencing handle disarmed closed = some s') : s' = s := by
  rcases hmode with rfl | rfl
  · cases h
    rfl
  · cases h
    rfl

/-- A request turns a mode into a request, unless it is disarmed already. -/
theorem requestDisarm_eq {fencing : FencingMode} (h : fencing ≠ .disarmRequested) :
    requestDisarm fencing = .disarmRequested ∨ (fencing = .disarmed ∧ requestDisarm fencing = .disarmed) := by
  unfold requestDisarm
  cases fencing with
  | none | armed => exact .inl rfl
  | disarmRequested => exact absurd rfl h
  | disarmed => exact .inr ⟨rfl, rfl⟩

/-- A request leaves an object disarmed and without a watchdog. -/
theorem objectUpdated_requested {fencing : FencingMode} {handle : Option WatchdogHandle} {disarmed : FencingState}
    {closed : Watchdogs → FencingState} (hmode : ObjectMode fencing handle)
    (h : s.objectUpdated env file (requestDisarm fencing) handle disarmed closed = some s') (hcrash : s'.crash = none) :
    (requestDisarm fencing = .disarmed ∧ handle = none ∧ s' = s) ∨ (handle = none ∧ s' = disarmed) ∨
      ∃ wd, s' = closed wd := by
  rcases hmode with rfl | ⟨rfl, hhandle⟩
  · rcases objectUpdated_cases h with ⟨-, hidle⟩ | ⟨hnone, -⟩ | ⟨-, hhandle, rfl⟩ | ⟨-, -, -, -, ⟨wd, -, rfl⟩ | ⟨-, rfl⟩⟩
    · exact hidle.elim nofun nofun
    · cases hnone
    · exact .inr (.inl ⟨hhandle, rfl⟩)
    · exact .inr (.inr ⟨wd, rfl⟩)
    · cases hcrash
  · exact .inl ⟨rfl, hhandle, objectUpdated_idle (.inr rfl) h⟩

theorem smSmUpdated_eq (s : FencingState) : s.smSmUpdated = { s with
    smvarFencing := if s.smFencing = .disarmRequested then .disarmed else s.smvarFencing
    smFencing := if s.smFencing = .disarmRequested then .disarmed else s.smFencing } := by
  unfold FencingState.smSmUpdated
  by_cases h : s.smFencing = .disarmRequested
  · rw [if_pos h, if_pos h, if_pos h]
  · rw [if_neg h, if_neg h, if_neg h]

/-- disarm_fencing leaves the SM object disarmed. -/
theorem ModesInv.requestSm (hinv : ModesInv s) (hpc : s.disarm = .requestSm) :
    ModesInv { ({ s with smFencing := requestDisarm s.smFencing } : FencingState).smSmUpdated with disarm := .requestHb } := by
  have hnot : ¬ s.disarm = .idle := by rw [hpc]; exact nofun
  have hmodes : (if requestDisarm s.smFencing = .disarmRequested then FencingMode.disarmed else s.smvarFencing) = .disarmed ∧
      (if requestDisarm s.smFencing = .disarmRequested then FencingMode.disarmed else requestDisarm s.smFencing) = .disarmed := by
    rcases requestDisarm_eq hinv.known with hrequested | ⟨hdisarmed, hkept⟩
    · rw [if_pos hrequested, if_pos hrequested]
      exact ⟨rfl, rfl⟩
    · have hne : ¬ requestDisarm s.smFencing = .disarmRequested := by rw [hkept]; exact nofun
      rw [if_neg hne, if_neg hne]
      exact ⟨hinv.sm.trans hdisarmed, hkept⟩
  rw [smSmUpdated_eq]
  dsimp only
  rw [hmodes.1, hmodes.2]
  constructor
  · rfl
  · exact nofun
  · exact hinv.hb
  · exact hinv.sf
  · exact fun hearly => absurd (hinv.early hearly).2.2.2 hnot
  · exact fun hstarting => absurd (hinv.starting hstarting).2 hnot
  · exact fun _ => rfl
  · exact nofun
  · exact nofun

/-- disarm_fencing leaves the HB object disarmed. -/
theorem ModesInv.requestHb {t : FencingState} (hinv : ModesInv s) (hpc : s.disarm = .requestHb)
    (ht : ({ s with hbFencing := requestDisarm s.hbFencing } : FencingState).hbHbUpdated env file = some t)
    (hcrash : t.crash = none) : ModesInv { t with disarm := .requestSf } := by
  have hnot : ¬ s.disarm = .idle := by rw [hpc]; exact nofun
  have hasked : s.smFencing = .disarmed := hinv.askedSm (by rw [hpc]; rfl)
  have hearly : s.threads = false → False := fun h => hnot (hinv.early h).2.2.2
  have hstarting : s.sm ≠ .started → False := fun h => hnot (hinv.starting h).2
  rcases objectUpdated_requested hinv.hb ht hcrash with ⟨hmode, hnone, rfl⟩ | ⟨hnone, rfl⟩ | ⟨wd, rfl⟩
  · exact ⟨hinv.sm, hinv.known, .inr ⟨hmode, hnone⟩, hinv.sf, fun h => (hearly h).elim, fun h => (hstarting h).elim,
      fun _ => hasked, fun _ => hmode, nofun⟩
  · exact ⟨hinv.sm, hinv.known, .inr ⟨rfl, hnone⟩, hinv.sf, fun h => (hearly h).elim, fun h => (hstarting h).elim,
      fun _ => hasked, fun _ => rfl, nofun⟩
  · exact ⟨hinv.sm, hinv.known, .inr ⟨rfl, rfl⟩, hinv.sf, fun h => (hearly h).elim, fun h => (hstarting h).elim,
      fun _ => hasked, fun _ => rfl, nofun⟩

/-- disarm_fencing leaves the SF object disarmed. -/
theorem ModesInv.requestSf {t : FencingState} (hinv : ModesInv s) (hpc : s.disarm = .requestSf)
    (ht : ({ s with sfFencing := requestDisarm s.sfFencing } : FencingState).sfSfUpdated env file = some t)
    (hcrash : t.crash = none) : ModesInv { t with disarm := .waitSm } := by
  have hnot : ¬ s.disarm = .idle := by rw [hpc]; exact nofun
  have hasked : s.smFencing = .disarmed ∧ s.hbFencing = .disarmed :=
    ⟨hinv.askedSm (by rw [hpc]; rfl), hinv.askedHb (by rw [hpc]; rfl)⟩
  have hearly : s.threads = false → False := fun h => hnot (hinv.early h).2.2.2
  have hstarting : s.sm ≠ .started → False := fun h => hnot (hinv.starting h).2
  rcases objectUpdated_requested hinv.sf ht hcrash with ⟨hmode, hnone, rfl⟩ | ⟨hnone, rfl⟩ | ⟨wd, rfl⟩
  · exact ⟨hinv.sm, hinv.known, hinv.hb, .inr ⟨hmode, hnone⟩, fun h => (hearly h).elim, fun h => (hstarting h).elim,
      fun _ => hasked.1, fun _ => hasked.2, fun _ => hmode⟩
  · exact ⟨hinv.sm, hinv.known, hinv.hb, .inr ⟨rfl, hnone⟩, fun h => (hearly h).elim, fun h => (hstarting h).elim,
      fun _ => hasked.1, fun _ => hasked.2, fun _ => rfl⟩
  · exact ⟨hinv.sm, hinv.known, hinv.hb, .inr ⟨rfl, rfl⟩, fun h => (hearly h).elim, fun h => (hstarting h).elim,
      fun _ => hasked.1, fun _ => hasked.2, fun _ => rfl⟩

theorem DisarmPc.askedHb_of_askedSf {pc : DisarmPc} (h : pc.askedSf = true) : pc.askedSm = true ∧ pc.askedHb = true := by
  cases pc with
  | idle | requestSm | requestHb | requestSf => cases h
  | waitSm | waitHb | waitSf | returned => exact ⟨rfl, rfl⟩

/-- disarm_fencing goes on when it has gone through all objects. -/
theorem ModesInv.goesOn (hinv : ModesInv s) (hasked : s.disarm.askedSf = true) (pc : DisarmPc) :
    ModesInv { s with disarm := pc } := by
  obtain ⟨hsm, hhb⟩ := DisarmPc.askedHb_of_askedSf hasked
  have hnot : ¬ s.disarm = .idle := by
    intro hidle
    rw [hidle] at hasked
    cases hasked
  constructor
  · exact hinv.sm
  · exact hinv.known
  · exact hinv.hb
  · exact hinv.sf
  · exact fun h => absurd (hinv.early h).2.2.2 hnot
  · exact fun h => absurd (hinv.starting h).2 hnot
  · exact fun _ => hinv.askedSm hsm
  · exact fun _ => hinv.askedHb hhb
  · exact fun _ => hinv.askedSf hasked

/-- A step that does not end the daemon keeps the modes. -/
theorem ModesInv.next (hinv : ModesInv s) (h : fencingNext c s a = some s') (hcrash : s'.crash = none) : ModesInv s' := by
  replace h := (fencingNext_step h).2
  cases a with
  | tick ms =>
    cases h
    exact ⟨hinv.sm, hinv.known, hinv.hb, hinv.sf, hinv.early, hinv.starting, hinv.askedSm, hinv.askedHb, hinv.askedSf⟩
  | sfInitialize1 malloc env file thread =>
    dsimp only [fencingStep] at h
    split at h
    · rename_i hguard
      have hmain : s.main = .start := by
        rw [Bool.and_eq_true, Bool.and_eq_true, decide_eq_true_eq] at hguard
        exact hguard.1.1
      have hthreads : s.threads = false := by
        unfold FencingState.threads
        rw [hmain]
        rfl
      obtain ⟨hhb, hsf, hsm, hdisarm⟩ := hinv.early hthreads
      cases h
      exact ⟨hinv.sm, hinv.known, hinv.hb, .inl hsf, fun _ => ⟨hhb, hsf, hsm, hdisarm⟩, hinv.starting, hinv.askedSm,
        hinv.askedHb, hinv.askedSf⟩
    · cases h
  | hbInitialize1 malloc env file receive send =>
    dsimp only [fencingStep] at h
    split at h
    · rename_i hguard
      have hmain : s.main = .sfReady := by
        rw [Bool.and_eq_true, Bool.and_eq_true, decide_eq_true_eq] at hguard
        exact hguard.1.1
      have hthreads : s.threads = false := by
        unfold FencingState.threads
        rw [hmain]
        rfl
      obtain ⟨hhb, hsf, hsm, hdisarm⟩ := hinv.early hthreads
      split at h
      · cases h
        exact ⟨hinv.sm, hinv.known, .inl hhb, hinv.sf, fun _ => ⟨hhb, hsf, hsm, hdisarm⟩, hinv.starting, hinv.askedSm,
          hinv.askedHb, hinv.askedSf⟩
      · cases h
        exact ⟨hinv.sm, hinv.known, .inl hhb, hinv.sf, fun _ => ⟨hhb, hsf, hsm, hdisarm⟩, hinv.starting, hinv.askedSm,
          hinv.askedHb, hinv.askedSf⟩
    · cases h
  | smTerminate =>
    dsimp only [fencingStep] at h
    split at h
    · cases h
      exact ⟨rfl, nofun, hinv.hb, hinv.sf, nofun, hinv.starting, fun _ => rfl, hinv.askedHb, hinv.askedSf⟩
    · cases h
  | hbTerminate env file =>
    dsimp only [fencingStep] at h
    split at h
    · have hstopped : ModesInv { s with hbReceive := false, main := .hbStopped } :=
        ⟨hinv.sm, hinv.known, hinv.hb, hinv.sf, nofun, hinv.starting, hinv.askedSm, hinv.askedHb, hinv.askedSf⟩
      split at h
      · cases h
        exact hstopped
      · refine afterCall_modes h hcrash fun _ => ?_
        exact ⟨hinv.sm, hinv.known, hinv.hb, hinv.sf, nofun, hinv.starting, hinv.askedSm, hinv.askedHb, hinv.askedSf⟩
    · cases h
  | sfTerminate env file =>
    dsimp only [fencingStep] at h
    split at h
    · -- only behind `hbFailed` the other modules have no threads, and then they have had none
      have hearly : ∀ t : FencingState, t.main = (if s.main = .hbFailed then .failed else .stopped) → t.threads = false →
          s.threads = false := by
        intro t hmain hthreads
        by_cases hfailed : s.main = .hbFailed
        · unfold FencingState.threads
          rw [hfailed]
          rfl
        · rw [if_neg hfailed] at hmain
          unfold FencingState.threads at hthreads
          rw [hmain] at hthreads
          cases hthreads
      split at h
      · cases h
        exact ⟨hinv.sm, hinv.known, hinv.hb, hinv.sf, fun h => hinv.early (hearly _ rfl h), hinv.starting, hinv.askedSm,
          hinv.askedHb, hinv.askedSf⟩
      · refine afterCall_modes h hcrash fun _ => ?_
        have hsf : ObjectMode s.sfFencing none := hinv.sf.imp_right fun h => ⟨h.1, rfl⟩
        exact ⟨hinv.sm, hinv.known, hinv.hb, hsf, fun h => hinv.early (hearly _ rfl h), hinv.starting, hinv.askedSm,
          hinv.askedHb, hinv.askedSf⟩
    · cases h
  | hbRefresh env | sfRefresh env =>
    dsimp only [fencingStep] at h
    split at h
    · exact refresh_modes hinv h hcrash
    · cases h
  | armFencing =>
    dsimp only [fencingStep] at h
    split at h
    · rename_i hguard
      rw [Bool.and_eq_true, decide_eq_true_eq] at hguard
      obtain ⟨hthreads, hstarting⟩ := hguard
      obtain ⟨hphase, hidle⟩ := hinv.starting (by rw [hstarting]; exact nofun)
      cases h
      refine ⟨rfl, nofun, hinv.hb, hinv.sf, fun h => ?_, fun _ => ⟨hphase, hidle⟩, fun h => ?_, hinv.askedHb, hinv.askedSf⟩
      · exact absurd (hthreads.symm.trans h) nofun
      · have hasked : s.disarm.askedSm = true := h
        rw [hidle] at hasked
        cases hasked
    · cases h
  | setStarted =>
    dsimp only [fencingStep] at h
    split at h
    · rename_i harmed
      cases h
      refine ⟨hinv.sm, hinv.known, hinv.hb, hinv.sf, fun h => ?_, fun h => absurd rfl h, hinv.askedSm, hinv.askedHb,
        hinv.askedSf⟩
      have hstarting := (hinv.early h).2.2.1
      rw [harmed] at hstarting
      cases hstarting
    · cases h
  | setSmPhase phase =>
    dsimp only [fencingStep] at h
    split at h
    · rename_i hguard
      have hstarted : s.sm = .started := by
        rw [Bool.and_eq_true, decide_eq_true_eq] at hguard
        exact hguard.1
      cases h
      exact ⟨hinv.sm, hinv.known, hinv.hb, hinv.sf, hinv.early, fun h => absurd hstarted h, hinv.askedSm, hinv.askedHb,
        hinv.askedSf⟩
    · cases h
  | smAbort =>
    dsimp only [fencingStep] at h
    split at h
    · cases h
      exact ⟨hinv.sm, hinv.known, hinv.hb, hinv.sf, hinv.early, fun h => ⟨.inr rfl, (hinv.starting h).2⟩, hinv.askedSm,
        hinv.askedHb, hinv.askedSf⟩
    · cases h
  | checkFencing who =>
    dsimp only [fencingStep] at h
    split at h
    · cases h
      exact ⟨hinv.sm, hinv.known, hinv.hb, hinv.sf, hinv.early, hinv.starting, hinv.askedSm, hinv.askedHb, hinv.askedSf⟩
    · cases h
  | selfFence who shutdown env =>
    dsimp only [fencingStep] at h
    split at h
    · refine afterCall_modes h hcrash fun _ => ?_
      exact ⟨hinv.sm, hinv.known, hinv.hb, hinv.sf, hinv.early, hinv.starting, hinv.askedSm, hinv.askedHb, hinv.askedSf⟩
    · cases h
  | smUpdated =>
    cases h
    unfold FencingState.smSmUpdated
    rw [if_neg hinv.known]
    exact hinv
  | hbUpdated env file =>
    have hidle : s' = s := objectUpdated_idle hinv.hb.idle h
    exact hidle ▸ hinv
  | sfUpdated env file =>
    have hidle : s' = s := objectUpdated_idle hinv.sf.idle h
    exact hidle ▸ hinv
  | disarm =>
    dsimp only [fencingStep] at h
    split at h
    · rename_i hguard
      rw [Bool.and_eq_true] at hguard
      split at h
      · cases h
        exact hinv
      · rename_i hphase
        cases h
        refine ⟨hinv.sm, hinv.known, hinv.hb, hinv.sf, fun h => ?_, fun h => absurd (hinv.starting h).1 hphase, nofun, nofun,
          nofun⟩
        exact absurd (hguard.1.symm.trans h) nofun
    · cases h
  | requestSm =>
    dsimp only [fencingStep] at h
    split at h
    · rename_i hpc
      cases h
      exact hinv.requestSm hpc
    · cases h
  | requestHb env file =>
    dsimp only [fencingStep] at h
    split at h
    · rename_i hpc
      obtain ⟨t, ht, rfl⟩ := Option.map_eq_some_iff.1 h
      exact hinv.requestHb hpc ht hcrash
    · cases h
  | requestSf env file =>
    dsimp only [fencingStep] at h
    split at h
    · rename_i hpc
      obtain ⟨t, ht, rfl⟩ := Option.map_eq_some_iff.1 h
      exact hinv.requestSf hpc ht hcrash
    · cases h
  | waitSm | waitHb | waitSf =>
    dsimp only [fencingStep] at h
    split at h
    · rename_i hpc
      have hasked : s.disarm.askedSf = true := by rw [hpc]; rfl
      cases h
      split
      · exact hinv.goesOn hasked _
      · exact hinv
    · cases h

/-! ## Timers -/

/-- The hypercall that stops the timer of an instance goes through. -/
def FencingAction.closes (a : FencingAction) : Bool := a.close?.all fun p => p.1.clear

/-- A call changes no timer but those of the instances before and behind it. -/
theorem WatchdogsKept.expires_eq {w w' : Watchdogs} {id : Nat} (h : WatchdogsKept w w') (hold : ∀ i ∈ w.instances, i.id ≠ id)
    (hnew : ∀ i ∈ w'.instances, i.id ≠ id) : w'.timers.expires id = w.timers.expires id := by
  by_cases hactive : w.timers.expires id = none
  · rw [hactive]
    by_contra hnow
    rcases h.new id hnow with hbefore | ⟨i, hi, hid⟩
    · exact hbefore hactive
    · exact hnew i hi hid
  · exact h.others id hold hactive

/-- The first call of watchdog.c reads its mode, and no more. -/
theorem configure_same (w : Watchdogs) (wdMode : List Char) :
    (w.configure wdMode).instances = w.instances ∧ (w.configure wdMode).timers = w.timers := by
  unfold Watchdogs.configure
  split
  · exact ⟨rfl, rfl⟩
  · exact ⟨rfl, rfl⟩

/-- The timers are those from before the daemon, but for those of its instances, which were not active. -/
structure TimersKept (timers : WatchdogTimers) (w : Watchdogs) : Prop where
  others : ∀ id, (∀ i ∈ w.instances, i.id ≠ id) → w.timers.expires id = timers.expires id
  own : ∀ i ∈ w.instances, timers.expires i.id = none

namespace TimersKept

variable {w w' : Watchdogs} {now : Nat}

theorem congr (h : TimersKept timers w) (hids : w'.instances.map (·.id) = w.instances.map (·.id))
    (hkept : ∀ id, (∀ i ∈ w.instances, i.id ≠ id) → w'.timers.expires id = w.timers.expires id) : TimersKept timers w' := by
  constructor
  · intro id hid
    have hold : ∀ i ∈ w.instances, i.id ≠ id := by
      intro i hi
      obtain ⟨j, hj, hsame⟩ := mem_of_map_eq hids.symm hi
      rw [← hsame]
      exact hid j hj
    rw [hkept id hold]
    exact h.others id hold
  · intro i hi
    obtain ⟨j, hj, hsame⟩ := mem_of_map_eq hids hi
    rw [← hsame]
    exact h.own j hj

/-- A new instance gets a timer that was not active before the daemon either. -/
theorem create {wdMode : List Char} {malloc out var : Option WatchdogHandle} {status : MtcStatus} (h : TimersKept timers w)
    (htable : TableInv w) (hfree : ∀ addr, malloc = some addr → addr ∉ w.instances.map (·.handle))
    (hcall : watchdogCreate wdMode malloc env file now w var = (status, out, w')) : TimersKept timers w' := by
  obtain ⟨-, hkept, -, hresult⟩ := watchdogCreate_spec htable hfree hcall
  obtain ⟨hinstances, htimers⟩ := configure_same w wdMode
  rcases hresult with ⟨-, new, -, -, hnew, hunused, -⟩ | ⟨-, -, hsame, htimes, -⟩
  · have hfirst : timers.expires new.id = none := by
      by_cases hold : ∃ i ∈ w.instances, i.id = new.id
      · obtain ⟨i, hi, hid⟩ := hold
        rw [← hid]
        exact h.own i hi
      · rw [← h.others new.id fun i hi hid => hold ⟨i, hi, hid⟩]
        exact hunused
    constructor
    · intro id hid
      have hold : ∀ i ∈ w.instances, i.id ≠ id := by
        intro i hi
        apply hid i
        rw [hnew]
        exact List.mem_append_left _ hi
      rw [← h.others id hold, ← htimers]
      exact hkept.expires_eq (hinstances ▸ hold) hid
    · intro i hi
      rw [hnew] at hi
      rcases List.mem_append.1 hi with hi | hi
      · exact h.own i hi
      · rw [List.mem_singleton.1 hi]
        exact hfirst
  · exact h.congr (by rw [hsame]) fun id _ => by rw [htimes]

theorem set {handle : WatchdogHandle} {timeout : Nat} {status : MtcStatus} (h : TimersKept timers w) (htable : TableInv w)
    (htimeout : timeout ≠ 0) (hcall : watchdogSet env now w (some handle) timeout = .returns (status, w')) :
    TimersKept timers w' := by
  obtain ⟨-, -, -, -, hkept, -, -, hids, -⟩ := watchdogSet_spec htable htimeout hcall
  refine h.congr hids fun id hid => hkept.expires_eq hid fun i hi => ?_
  obtain ⟨j, hj, hsame⟩ := mem_of_map_eq hids hi
  rw [← hsame]
  exact hid j hj

/-- The timer of an instance that is closed is off again, if the hypercall goes through. -/
theorem close {handle : WatchdogHandle} (h : TimersKept timers w) (htable : TableInv w) (henv : env.clear = true)
    (hcall : watchdogClose env file now w (some handle) = .returns w') : TimersKept timers w' := by
  obtain ⟨i, hi, rfl, -, hkept, hmem, hstopped, -⟩ := watchdogClose_spec htable hcall
  have hoff : w'.timers.expires i.id = none := by
    by_cases hmode : w.watchdogMode = .hypervisor
    · exact hstopped hmode henv
    · rw [htable.idle hmode i hi]
      exact w'.timers.expires_zero
  constructor
  · intro id hid
    by_cases hclosed : i.id = id
    · rw [← hclosed, hoff, h.own i hi]
    · have hold : ∀ j ∈ w.instances, j.id ≠ id := by
        intro j hj
        by_cases hsame : j.handle = i.handle
        · rw [htable.eq_of_handle hj hi hsame]
          exact hclosed
        · exact hid j ((hmem j).2 ⟨hj, hsame⟩)
      rw [hkept.expires_eq hold hid]
      exact h.others id hold
  · intro j hj
    exact h.own j ((hmem j).1 hj).1

end TimersKept

/-- A step in which no closing hypercall is stopped keeps the timers, but for `watchdog_selffence`. -/
theorem fencingNext_timers (hwh : c.wh ≠ 0) (hws : c.ws ≠ 0) (howners : OwnersInv s) (hcloses : a.closes = true)
    (hinv : s.fenced = none → TimersKept timers s.wd) (h : fencingNext c s a = some s') :
    s'.fenced = none → TimersKept timers s'.wd := by
  intro hfenced'
  have hclear : ∀ env file, a.close? = some (env, file) → env.clear = true := by
    intro env file hclose
    unfold FencingAction.closes at hcloses
    rw [hclose] at hcloses
    exact hcloses
  cases fencingNext_move h with
  | quiet hwd _ _ hfenced _ | dangled _ hwd _ _ hfenced _ _ _ =>
    rw [hwd]
    exact hinv (hfenced.symm.trans hfenced')
  | sfCreated malloc env file status _ _ _ hmalloc hcall _ hfenced _ _ =>
    exact (hinv hfenced).create (howners.table hfenced) (mallocs_free hmalloc) hcall
  | hbCreated malloc out env file status _ _ _ hmalloc hcall _ _ hfenced _ _ =>
    exact (hinv hfenced).create (howners.table hfenced) (mallocs_free hmalloc) hcall
  | refreshed handle env timeout status htimeout _ hfenced hcall _ _ _ _ =>
    exact (hinv hfenced).set (howners.table hfenced) (refreshTimeout_ne_zero hwh hws htimeout) hcall
  | hbClosed handle env file hclose _ hfenced hcall _ _ _ _ | sfClosed handle env file hclose _ hfenced hcall _ _ _ _ =>
    exact (hinv hfenced).close (howners.table hfenced) (hclear env file hclose) hcall
  | fenced who shutdown env _ _ _ _ _ _ hfenced _ =>
    rw [hfenced] at hfenced'
    cases hfenced'

/-- What the runs keep in which the closing hypercalls go through. -/
theorem timers_of_reach {ok : FencingState → FencingAction → Prop} (hwh : c.wh ≠ 0) (hws : c.ws ≠ 0)
    (hok : ∀ s a, ok s a → a.closes = true) (h : (fencing c timers idFile).Reach ok s) :
    OwnersInv s ∧ (s.fenced = none → TimersKept timers s.wd) := by
  refine h.inv (I := fun s => OwnersInv s ∧ (s.fenced = none → TimersKept timers s.wd)) ?_ ?_
  · rintro _ rfl
    exact ⟨.initial timers idFile, fun _ => ⟨fun _ _ => rfl, List.forall_mem_nil _⟩⟩
  · rintro s t a ⟨howners, hinv⟩ ha hn
    exact ⟨howners.next hwh hws hn, fencingNext_timers hwh hws howners (hok s a ha) hinv hn⟩

theorem modes_of_reach {ok : FencingState → FencingAction → Prop} (h : (fencing c timers idFile).Reach ok s) :
    s.crash = none → ModesInv s := by
  refine h.inv (I := fun s => s.crash = none → ModesInv s) ?_ ?_
  · rintro _ rfl _
    exact .initial timers idFile
  · intro s t a hinv _ hn hcrash
    exact (hinv (fencingNext_step hn).1).next hn hcrash

/-- Timers of a table without instances are those from before the daemon. -/
theorem TimersKept.timers_eq {w : Watchdogs} (h : TimersKept timers w) (hempty : w.instances = []) : w.timers = timers := by
  ext id : 2
  apply h.others
  rw [hempty]
  exact List.forall_mem_nil _

/-- In every run whose closing hypercalls go through: once disarm_fencing has been answered, and while the daemon runs and
no thread has gone to fence, fencing is disarmed in all modules, no instance is left, and the timers of the domain are
those from before the daemon, so none of them runs for it. -/
theorem disarm_restores_timers (hwh : c.wh ≠ 0) (hws : c.ws ≠ 0)
    (h : (fencing c timers idFile).Reach (fun _ a => a.closes = true) s) (hcrash : s.crash = none) (hfenced : s.fenced = none)
    (hdisarm : s.disarm = .returned) :
    s.smvarFencing = .disarmed ∧ s.smFencing = .disarmed ∧ s.hbFencing = .disarmed ∧ s.sfFencing = .disarmed ∧
      s.wd.instances = [] ∧ s.wd.timers = timers := by
  obtain ⟨howners, htimers⟩ := timers_of_reach hwh hws (fun _ _ ha => ha) h
  have hmodes := modes_of_reach h hcrash
  have hsm : s.smFencing = .disarmed := hmodes.askedSm (by rw [hdisarm]; rfl)
  have hhb : s.hbFencing = .disarmed := hmodes.askedHb (by rw [hdisarm]; rfl)
  have hsf : s.sfFencing = .disarmed := hmodes.askedSf (by rw [hdisarm]; rfl)
  have hnoHb : s.hbWatchdog = none := by
    rcases hmodes.hb with harmed | ⟨-, hnone⟩
    · rw [harmed] at hhb
      cases hhb
    · exact hnone
  have hnoSf : s.sfWatchdog = none := by
    rcases hmodes.sf with harmed | ⟨-, hnone⟩
    · rw [harmed] at hsf
      cases hsf
    · exact hnone
  have hempty : s.wd.instances = [] := howners.empty hnoHb hnoSf
  exact ⟨hmodes.sm.trans hsm, hsm, hhb, hsf, hempty, (htimers hfenced).timers_eq hempty⟩

theorem disarm_restores_timers_armed : ∃ s, (fencing hypervisorConfig .off none).Reach (fun _ a => a.closes = true) s ∧
    s.up = true ∧ s.disarm = .returned ∧ s.smvarFencing = .disarmed ∧ s.wd.instances = [] ∧ s.wd.timers = .off := by
  have hrun : ∃ s, (fencing hypervisorConfig .off none).Reach (fun _ a => a.closes = true) s ∧
      (s.up && decide (s.crash = none) && decide (s.fenced = none) && decide (s.disarm = .returned)) = true :=
    Machine.reach_of_check (s := .initial .off none) rfl (armedRun ++ [.disarm, .requestSm, .requestHb clearHypercall openFile,
      .hbRefresh clearHypercall, .requestSf clearHypercall openFile, .waitSm, .tick 60000, .waitHb, .waitSf]) _
      (by decide +kernel)
  obtain ⟨s, hs, hp⟩ := hrun
  simp only [Bool.and_eq_true, decide_eq_true_eq] at hp
  obtain ⟨⟨⟨hup, hcrash⟩, hfenced⟩, hdisarm⟩ := hp
  obtain ⟨hmode, -, -, -, hempty, htimers⟩ := disarm_restores_timers (by decide) (by decide) hs hcrash hfenced hdisarm
  exact ⟨s, hs, hup, hdisarm, hmode, hempty, htimers⟩

/-! ## Fencing -/

/-- Of the hypercalls of `watchdog_selffence` one goes through: that to reboot domain 0, or one for an instance. -/
def FencingAction.fences (s : FencingState) : FencingAction → Bool
  | .selfFence _ shutdown env => shutdown.clear || (List.range s.wd.instances.length).any fun k => (env k).clear
  | _ => true

/-- Domain 0 is rebooting, or a timer runs out. -/
def FencingState.Ends (s : FencingState) : Prop :=
  ∀ t, s.fenced = some t → s.wd.down = true ∨ ∃ id, s.wd.timers.expires id = some (t + wdFence * 1000)

theorem fencingNext_ends (howners : OwnersInv s) (hfences : a.fences s = true) (hinv : s.Ends)
    (h : fencingNext c s a = some s') : s'.Ends := by
  intro t ht
  cases fencingNext_move h with
  | quiet hwd _ _ hfenced _ | dangled _ hwd _ _ hfenced _ _ _ =>
    rw [hwd]
    exact hinv t (hfenced.symm.trans ht)
  | sfCreated _ _ _ _ _ _ _ _ _ _ _ hnone _ | hbCreated _ _ _ _ _ _ _ _ _ _ _ _ _ hnone _
  | refreshed _ _ _ _ _ _ _ _ _ _ hnone _ | hbClosed _ _ _ _ _ _ _ _ _ hnone _ | sfClosed _ _ _ _ _ _ _ _ _ hnone _ =>
    rw [hnone] at ht
    cases ht
  | fenced who shutdown env ha _ hnone hcall _ _ hfenced _ =>
    subst ha
    rw [hfenced] at ht
    cases ht
    obtain ⟨-, -, -, -, -, -, hset⟩ := watchdogSelffence_spec (howners.table hnone) hcall
    unfold FencingAction.fences at hfences
    rw [Bool.or_eq_true, List.any_eq_true] at hfences
    apply hset
    refine hfences.imp_right ?_
    rintro ⟨k, hk, henv⟩
    exact ⟨k, List.mem_range.1 hk, henv⟩

/-- In every run in which one hypercall of `watchdog_selffence` goes through: a host that has gone to fence itself is down
within `WD_FENCE`, whatever the other threads do. -/
theorem self_fence_brings_host_down {t : Nat} (hwh : c.wh ≠ 0) (hws : c.ws ≠ 0)
    (h : (fencing c timers idFile).Reach (fun s a => a.fences s = true) s) (hfenced : s.fenced = some t) (hup : s.up = true) :
    s.now < t + wdFence * 1000 := by
  have hinv : OwnersInv s ∧ s.Ends := by
    refine h.inv (I := fun s => OwnersInv s ∧ s.Ends) ?_ ?_
    · rintro _ rfl
      exact ⟨.initial timers idFile, nofun⟩
    · rintro s t a ⟨howners, hinv⟩ ha hn
      exact ⟨howners.next hwh hws hn, fencingNext_ends howners ha hinv hn⟩
  unfold FencingState.up at hup
  rw [Bool.and_eq_true, Bool.not_eq_true'] at hup
  obtain ⟨hdown, hrun⟩ := hup
  rcases hinv.2 t hfenced with hreboot | ⟨id, hexpires⟩
  · rw [hdown] at hreboot
    cases hreboot
  · exact WatchdogTimers.running_iff.1 hrun id _ hexpires

theorem self_fence_brings_host_down_armed :
    ∃ s, (fencing hypervisorConfig .off none).Reach (fun s a => a.fences s = true) s ∧ s.up = true ∧
      s.fenced = some 10000 ∧ 10500 ≤ s.now ∧ s.now < 11000 := by
  have hrun : ∃ s, (fencing hypervisorConfig .off none).Reach (fun s a => a.fences s = true) s ∧
      (s.up && decide (s.fenced = some 10000) && decide (10500 ≤ s.now)) = true :=
    -- the request to reboot is stopped, and so is the hypercall for the first instance
    Machine.reach_of_check (s := .initial .off none) rfl (armedRun ++ [.checkFencing .faultHandler,
      .selfFence .faultHandler { clearHypercall with reaches := false } fun k => { clearHypercall with reaches := k ≠ 0 },
      .tick 500]) _ (by decide +kernel)
  obtain ⟨s, hs, hp⟩ := hrun
  simp only [Bool.and_eq_true, decide_eq_true_eq] at hp
  obtain ⟨⟨hup, hfenced⟩, hnow⟩ := hp
  exact ⟨s, hs, hup, hfenced, hnow, self_fence_brings_host_down (by decide) (by decide) hs hfenced hup⟩

/-! ## What a dead daemon leaves -/

/-- The file operations of a step that may create or close an instance go through. -/
def FencingAction.records (a : FencingAction) : Bool :=
  (a.close?.all fun p => p.2.fopens && p.2.unlinks) && a.create?.all fun file => file.fopens && file.unlinks

/-- The file names the instances, where there are any. -/
def FencingState.Named (s : FencingState) : Prop := s.wd.instances ≠ [] → s.wd.Recorded

theorem idText_congr {instances instances' : List WatchdogInstance}
    (h : instances'.map (·.id) = instances.map (·.id)) : idText instances' = idText instances := by
  have hids : ∀ l : List WatchdogInstance,
      idText l = (l.map (·.id)).flatMap fun id => printInt (BitVec.ofNat 32 id).toInt ++ ['\n'] := by
    intro l
    rw [List.flatMap_map]
    rfl
  rw [hids, h, ← hids]

theorem Watchdogs.Recorded.congr {w w' : Watchdogs} (h : w.Recorded) (hids : w'.instances.map (·.id) = w.instances.map (·.id))
    (hfile : w'.idFile = w.idFile) : w'.Recorded := by
  have hempty : w'.instances = [] ↔ w.instances = [] := by
    rw [← List.map_eq_nil_iff (f := fun i : WatchdogInstance => i.id), hids, List.map_eq_nil_iff]
  unfold Watchdogs.Recorded at h ⊢
  rw [hfile, h, idText_congr hids]
  simp only [hempty]

theorem FencingState.Named.congr (h : s.Named) (hids : s'.wd.instances.map (·.id) = s.wd.instances.map (·.id))
    (hfile : s'.wd.idFile = s.wd.idFile) : s'.Named := by
  intro hsome
  refine (h fun hempty => hsome ?_).congr hids hfile
  rw [hempty] at hids
  exact List.map_eq_nil_iff.1 hids

end Xha
