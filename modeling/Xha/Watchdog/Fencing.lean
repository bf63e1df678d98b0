/-
Fencing in the running daemon: the main thread creates the two watchdog instances and closes them, the heartbeat and the
State-File thread refresh them, `self_fence` fences the host, and disarm_fencing takes all of it back (heartbeat.c,
statefile.c, sm.c, sc_func.c). A step is a lock section of a thread. The host goes down when a timer runs out.
-/
import Xha.Com
import Xha.Lib.Transition
import Xha.Watchdog.Cleanup

namespace Xha

open Transition

/-! ## State -/

/-- How far `main` is with the modules that have a watchdog: phase 1 of their initialization, and their termination;
behind `hbFailed` only that of the State-File. -/
inductive MainPc
  | start | sfReady | sfFailed | hbFailed | failed | running | smStopped | hbStopped | stopped
  deriving DecidableEq

/-- `sm` before `arm_fencing`, between it and `set_sm_phase(SM_PHASE_STARTED)`, and behind both. -/
inductive SmPc
  | starting | armed | started
  deriving DecidableEq

/-- The threads that call `self_fence`: `sm` in the fault handler, `hb_receive` and `xapimon`. -/
inductive SelfFencer
  | faultHandler | hbReceive | xapimon
  deriving DecidableEq

/-- Where `script_service_do_disarm_fencing` is; `returned` when it has answered `MTC_SUCCESS`. -/
inductive DisarmPc
  | idle | requestSm | requestHb | requestSf | waitSm | waitHb | waitSf | returned
  deriving DecidableEq

/-- How the daemon dies. -/
inductive DaemonCrash
  | overdue | selffence | fencingMode | dangling
  deriving DecidableEq

structure FencingState where
  now : Nat
  wd : Watchdogs
  fenced : Option Nat
  hbWatchdog : Option WatchdogHandle
  sfWatchdog : Option WatchdogHandle
  smvarFencing : FencingMode
  smFencing : FencingMode
  hbFencing : FencingMode
  sfFencing : FencingMode
  phase : SmPhase
  main : MainPc
  sm : SmPc
  hbReceive : Bool
  decided : SelfFencer → Bool
  disarm : DisarmPc
  crash : Option DaemonCrash

/-- The parameters: `_wd_mode`, `_Wh` and `_Ws`. -/
structure FencingConfig where
  wdMode : List Char
  wh : Nat
  ws : Nat

/-- The daemon when `main` has done phase 0, whatever timers there are and whatever file of ids. -/
def FencingState.initial (timers : WatchdogTimers) (idFile : Option (List Char)) : FencingState where
  now := 0
  wd := .initial timers idFile
  fenced := none
  hbWatchdog := none
  sfWatchdog := none
  smvarFencing := .none
  smFencing := .none
  hbFencing := .armed
  sfFencing := .armed
  phase := .starting
  main := .start
  sm := .starting
  hbReceive := false
  decided _ := false
  disarm := .idle
  crash := none

/-- The host runs. -/
def FencingState.up (s : FencingState) : Bool := !s.wd.down && s.wd.timers.running s.now

/-! ## Watchdog calls of a thread -/

/-- The daemon after a call of watchdog.c; none when another thread has the mutex for good. -/
def FencingState.afterCall {α : Type} (s : FencingState) (call : WatchdogCall α) (aborts : DaemonCrash)
    (k : α → FencingState) : Option FencingState :=
  if s.fenced.isSome then none
  else match call with
    | .returns result => some (k result)
    | .aborts => some { s with crash := some aborts }
    | .dangles => some { s with crash := some .dangling }

/-- A thread refreshes its watchdog if the handle is valid. -/
def FencingState.refresh (s : FencingState) (env : HypercallEnv) (handle : Option WatchdogHandle) (timeout : Nat) :
    Option FencingState :=
  if handle.isNone then some s
  else s.afterCall (watchdogSet env s.now s.wd handle timeout) .overdue fun (_, wd) => { s with wd }

/-- `sm_sm_updated`. -/
def FencingState.smSmUpdated (s : FencingState) : FencingState :=
  if s.smFencing = .disarmRequested then { s with smvarFencing := .disarmed, smFencing := .disarmed } else s

/-- The callback of an object with a fencing mode and a watchdog: a requested disarm takes effect, which leaves
`disarmed`, and then `closed` behind the call that closes the watchdog. -/
def FencingState.objectUpdated (s : FencingState) (env : HypercallEnv) (file : RecordEnv) (fencing : FencingMode)
    (handle : Option WatchdogHandle) (disarmed : FencingState) (closed : Watchdogs → FencingState) : Option FencingState :=
  match fencing with
  | .disarmRequested =>
    if handle.isNone then some disarmed
    else disarmed.afterCall (watchdogClose env file s.now s.wd handle) .overdue closed
  | .armed | .disarmed => some s
  | .none => some { s with crash := some .fencingMode }

/-- `hb_hb_updated`. -/
def FencingState.hbHbUpdated (s : FencingState) (env : HypercallEnv) (file : RecordEnv) : Option FencingState :=
  s.objectUpdated env file s.hbFencing s.hbWatchdog { s with hbFencing := .disarmed } fun wd =>
    { s with hbFencing := .disarmed, wd, hbWatchdog := none }

/-- `sf_sf_updated`. -/
def FencingState.sfSfUpdated (s : FencingState) (env : HypercallEnv) (file : RecordEnv) : Option FencingState :=
  s.objectUpdated env file s.sfFencing s.sfWatchdog { s with sfFencing := .disarmed } fun wd =>
    { s with sfFencing := .disarmed, wd, sfWatchdog := none }

/-! ## Steps -/

inductive FencingAction
  | tick (ms : Nat)
  | sfInitialize1 (malloc : Option WatchdogHandle) (env : HypercallEnv) (file : RecordEnv) (thread : Bool)
  | hbInitialize1 (malloc : Option WatchdogHandle) (env : HypercallEnv) (file : RecordEnv) (receive send : Bool)
  | smTerminate | hbTerminate (env : HypercallEnv) (file : RecordEnv) | sfTerminate (env : HypercallEnv) (file : RecordEnv)
  | hbRefresh (env : HypercallEnv) | sfRefresh (env : HypercallEnv)
  | armFencing | setStarted | setSmPhase (phase : SmPhase) | smAbort
  | checkFencing (who : SelfFencer) | selfFence (who : SelfFencer) (shutdown : HypercallEnv) (env : Nat → HypercallEnv)
  | smUpdated | hbUpdated (env : HypercallEnv) (file : RecordEnv) | sfUpdated (env : HypercallEnv) (file : RecordEnv)
  | disarm | requestSm | requestHb (env : HypercallEnv) (file : RecordEnv) | requestSf (env : HypercallEnv) (file : RecordEnv)
  | waitSm | waitHb | waitSf

/-- The address that `malloc` returns is that of no instance. -/
def FencingState.mallocs (s : FencingState) (malloc : Option WatchdogHandle) : Bool :=
  malloc.all fun addr => s.wd.instances.all fun i => i.handle ≠ addr

/-- The modules that come behind hb in `init_funcs` have their threads. -/
def FencingState.threads (s : FencingState) : Bool :=
  s.main = .running || s.main = .smStopped || s.main = .hbStopped || s.main = .stopped

/-- The thread is where it may call `self_fence`. -/
def FencingState.mayFence (s : FencingState) : SelfFencer → Bool
  | .faultHandler => s.sm = .started
  | .hbReceive => s.hbReceive
  | .xapimon => s.threads

/-- A step of a daemon on a host that runs. -/
def fencingStep (c : FencingConfig) (s : FencingState) : FencingAction → Option FencingState
  | .tick ms => some { s with now := s.now + ms }
  | .sfInitialize1 malloc env file thread =>
    if s.main = .start && s.mallocs malloc && s.fenced.isNone then
      let (status, sfWatchdog, wd) := watchdogCreate c.wdMode malloc env file s.now s.wd s.sfWatchdog
      let s := { s with wd, sfWatchdog }
      some { s with main := if status = mtcSuccess && thread then .sfReady else .sfFailed }
    else none
  | .hbInitialize1 malloc env file receive send =>
    if s.main = .sfReady && s.mallocs malloc && s.fenced.isNone then
      let (status, hbWatchdog, wd) := watchdogCreate c.wdMode malloc env file s.now s.wd s.hbWatchdog
      if status ≠ mtcSuccess then some { s with wd, hbWatchdog := none, main := .hbFailed }
      else some { s with wd, hbWatchdog, hbReceive := receive, main := if receive && send then .running else .hbFailed }
    else none
  | .smTerminate =>
    if s.main = .running then some { s with smvarFencing := .disarmed, smFencing := .disarmed, main := .smStopped } else none
  | .hbTerminate env file =>
    -- it joins `hb_receive`, so that thread is not in `watchdog_selffence`
    if (s.main = .running || s.main = .smStopped) && !s.decided .hbReceive then
      let s := { s with hbReceive := false, main := .hbStopped }
      if s.hbWatchdog.isNone then some s
      else s.afterCall (watchdogClose env file s.now s.wd s.hbWatchdog) .overdue fun wd => { s with wd }
    else none
  | .sfTerminate env file =>
    if s.main = .hbStopped || s.main = .hbFailed then
      let s := { s with main := if s.main = .hbFailed then .failed else .stopped }
      if s.sfWatchdog.isNone then some s
      else s.afterCall (watchdogClose env file s.now s.wd s.sfWatchdog) .overdue fun wd => { s with wd, sfWatchdog := none }
    else none
  | .hbRefresh env => if s.hbReceive && !s.decided .hbReceive then s.refresh env s.hbWatchdog c.wh else none
  | .sfRefresh env => if s.main ≠ .start && s.main ≠ .sfFailed then s.refresh env s.sfWatchdog c.ws else none
  | .armFencing =>
    if s.threads && s.sm = .starting then
      some { s with smvarFencing := .armed, smFencing := .armed, sm := .armed }
    else none
  | .setStarted => if s.sm = .armed then some { s with phase := .started, sm := .started } else none
  | .setSmPhase phase => if s.sm = .started && !s.decided .faultHandler then some { s with phase } else none
  | .smAbort => if s.threads then some { s with phase := .aborted } else none
  | .checkFencing who =>
    if s.smvarFencing = .armed && s.mayFence who then
      some { s with decided := Function.update s.decided who true }
    else none
  | .selfFence who shutdown env =>
    if s.decided who then
      s.afterCall (watchdogSelffence shutdown env s.now s.wd) .selffence fun wd => { s with wd, fenced := some s.now }
    else none
  | .smUpdated => some s.smSmUpdated
  | .hbUpdated env file => s.hbHbUpdated env file
  | .sfUpdated env file => s.sfSfUpdated env file
  | .disarm =>
    if s.threads && (s.disarm = .idle || s.disarm = .returned) then
      -- `get_hoststate`
      if s.phase = .starting ∨ s.phase = .aborted then some s else some { s with disarm := .requestSm }
    else none
  | .requestSm =>
    if s.disarm = .requestSm then
      let s := { s with smFencing := requestDisarm s.smFencing }
      some { s.smSmUpdated with disarm := .requestHb }
    else none
  | .requestHb env file =>
    if s.disarm = .requestHb then
      let s := { s with hbFencing := requestDisarm s.hbFencing }
      (s.hbHbUpdated env file).map fun s => { s with disarm := .requestSf }
    else none
  | .requestSf env file =>
    if s.disarm = .requestSf then
      let s := { s with sfFencing := requestDisarm s.sfFencing }
      (s.sfSfUpdated env file).map fun s => { s with disarm := .waitSm }
    else none
  | .waitSm =>
    if s.disarm = .waitSm then some (if s.smFencing = .disarmed then { s with disarm := .waitHb } else s) else none
  | .waitHb =>
    if s.disarm = .waitHb then some (if s.hbFencing = .disarmed then { s with disarm := .waitSf } else s) else none
  | .waitSf =>
    if s.disarm = .waitSf then some (if s.sfFencing = .disarmed then { s with disarm := .returned } else s) else none

/-- Nothing happens once the host is down; a daemon that has crashed does nothing more. -/
def fencingNext (c : FencingConfig) (s : FencingState) (a : FencingAction) : Option FencingState :=
  if s.up && s.crash.isNone then fencingStep c s a else none

def fencing (c : FencingConfig) (timers : WatchdogTimers) (idFile : Option (List Char)) : Machine FencingState FencingAction where
  init := (· = .initial timers idFile)
  next := fencingNext c

end Xha
