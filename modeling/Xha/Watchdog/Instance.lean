/-
The watchdog instances of the daemon (watchdog.c): the table of instances, the hypercalls that create, refresh and stop
their timers, and the file that names them. A time is read once in a call, in milliseconds, and the hypervisor's clock
reads the same. The labels and the statuses that only the log shows are left out.
-/
import Xha.Config.File
import Xha.Lib.SwapRemove
import Xha.Watchdog.Hypervisor

namespace Xha

/-! ## Data -/

def mtcErrorWdInsufficientResource : MtcStatus := 1400
def mtcErrorWdOpen : MtcStatus := 1401
def mtcErrorWdInstanceUnavailable : MtcStatus := 1402
def mtcErrorWdInvalidHandle : MtcStatus := 1403

/-- The address of an instance; no handle is `INVALID_WATCHDOG_HANDLE_VALUE`. -/
abbrev WatchdogHandle := Nat

/-- `WATCHDOG_INSTANCE`, with its address. -/
structure WatchdogInstance where
  handle : WatchdogHandle
  id : Nat
  setTime : Nat
  timeout : Nat
  status : MtcStatus
  deriving DecidableEq

/-- `MAX_WATCHDOG_INSTANCE`, the length of `instance`; nothing checks it. -/
def maxWatchdogInstance : Nat := 8

def watchdogTimeoutMax : Nat := 0xFFFFFFFF

/-- `WD_FENCE`. -/
def wdFence : Nat := 1

inductive WatchdogMode
  | none | hypervisor | user
  deriving DecidableEq

/-- What the hypercalls keep: whether `hypercall_fd` is open, and `mlock_done`. -/
structure Privcmd where
  hypercallFd : Bool
  mlockDone : Bool
  deriving DecidableEq

/-- The static variables of watchdog.c, the timers of the domain and the file of the ids. -/
structure Watchdogs where
  instances : List WatchdogInstance
  privcmd : Privcmd
  watchdogMode : WatchdogMode
  initialized : Bool
  timers : WatchdogTimers
  idFile : Option (List Char)
  down : Bool

/-- Before the first call, whatever timers there are. -/
def Watchdogs.initial (timers : WatchdogTimers) (idFile : Option (List Char)) : Watchdogs where
  instances := []
  privcmd := ⟨false, false⟩
  watchdogMode := .hypervisor
  initialized := false
  timers := timers
  idFile := idFile
  down := false

/-- How a call ends: it returns, an assertion fails, or it reads an instance that has been freed. -/
inductive WatchdogCall (α : Type)
  | returns (result : α)
  | aborts
  | dangles

/-! ## Hypercalls -/

/-- What a hypercall meets on its way. -/
structure HypercallEnv where
  locksArg : Bool
  locksHypercall : Bool
  opens : Bool
  fistOpen : Bool
  fistUnavailable : Bool
  reaches : Bool
  deriving DecidableEq

/-- Nothing is in the way of the hypercall. -/
def HypercallEnv.clear (env : HypercallEnv) : Bool :=
  env.locksArg && env.locksHypercall && env.opens && !env.fistOpen && !env.fistUnavailable && env.reaches

/-- `do_watchdog_close`. -/
def doWatchdogClose (w : Watchdogs) : Watchdogs :=
  if w.watchdogMode ≠ .hypervisor then w else { w with privcmd := { w.privcmd with hypercallFd := false } }

/-- `do_hypercall`: the status with `*ioctl_ret`, and what it leaves; `ioctl` is what the hypervisor would do. -/
def doHypercall (env : HypercallEnv) (w : Watchdogs) (ioctl : Watchdogs → Int × Watchdogs) : (MtcStatus × Int) × Watchdogs :=
  if !(w.privcmd.hypercallFd || (env.opens && !env.fistOpen)) then ((mtcErrorWdOpen, 0), w)
  else
    let w := { w with privcmd := { w.privcmd with hypercallFd := true } }
    let (ret, w) := if env.fistUnavailable then (-999, w) else if env.reaches then ioctl w else (-1, w)
    if ret < 0 then ((mtcErrorWdInstanceUnavailable, 0), w) else ((mtcSuccess, ret), w)

/-- `do_watchdog_hypercall`: the status, `*id`, and what it leaves. -/
def doWatchdogHypercall (env : HypercallEnv) (now : Nat) (w : Watchdogs) (id timeout : Nat) :
    MtcStatus × Nat × Watchdogs :=
  if w.watchdogMode ≠ .hypervisor then (mtcSuccess, id, w)
  else if !w.privcmd.mlockDone && !(env.locksArg && env.locksHypercall) then (mtcErrorWdInsufficientResource, id, w)
  else
    let w := { w with privcmd := { w.privcmd with mlockDone := true } }
    let ((status, ret), w) := doHypercall env w fun w =>
      ((doWatchdog w.timers now id timeout).1, { w with timers := (doWatchdog w.timers now id timeout).2 })
    if status ≠ mtcSuccess then (status, id, w)
    else if id = 0 then if ret > 0 then (mtcSuccess, ret.toNat, w) else (mtcErrorWdInstanceUnavailable, id, w)
    else (mtcSuccess, id, w)

/-- `do_domain_shutdown_self`: the hypervisor reboots domain 0. -/
def doDomainShutdownSelf (env : HypercallEnv) (w : Watchdogs) : Watchdogs :=
  (doHypercall env w fun w => (0, { w with down := true })).2

/-! ## The file of the ids -/

/-- What meets the file of the ids: whether it opens for writing, and whether it is removed. -/
structure RecordEnv where
  fopens : Bool
  unlinks : Bool
  deriving DecidableEq

/-- What the file says of a table. -/
def idText (instances : List WatchdogInstance) : List Char :=
  instances.flatMap fun i => printInt (BitVec.ofNat 32 i.id).toInt ++ ['\n']

/-- `record_watchdog_instatnce`. -/
def recordWatchdogInstance (env : RecordEnv) (w : Watchdogs) : Watchdogs :=
  if 0 < w.instances.length then if env.fopens then { w with idFile := some (idText w.instances) } else w
  else if w.idFile.isSome && env.unlinks then { w with idFile := none }
  else w

/-! ## Calls -/

/-- `watchdog_mode` as the first call finds it in the configuration. -/
def configuredMode (wdMode : List Char) (mode : WatchdogMode) : WatchdogMode :=
  if wdMode = "HYPERVISOR".toList then .hypervisor
  else if wdMode = "USER".toList then .user
  else if wdMode = "NONE".toList then .none
  else mode

/-- The first call reads the configuration. -/
def Watchdogs.configure (w : Watchdogs) (wdMode : List Char) : Watchdogs :=
  if w.initialized then w else { w with watchdogMode := configuredMode wdMode w.watchdogMode, initialized := true }

/-- `watchdog_create`: the status, the handle in the caller's variable, and what it leaves; `malloc` is the address that
`malloc` returns. -/
def watchdogCreate (wdMode : List Char) (malloc : Option WatchdogHandle) (env : HypercallEnv) (file : RecordEnv) (now : Nat)
    (w : Watchdogs) (handle : Option WatchdogHandle) : MtcStatus × Option WatchdogHandle × Watchdogs :=
  let w := w.configure wdMode
  match malloc with
  | none => (mtcErrorWdInsufficientResource, handle, w)
  | some addr =>
    let (status, id, w) := doWatchdogHypercall env now w 0 watchdogTimeoutMax
    if status = mtcSuccess then
      let new : WatchdogInstance := ⟨addr, id, now, watchdogTimeoutMax, mtcSuccess⟩
      (mtcSuccess, some addr, recordWatchdogInstance file { w with instances := w.instances ++ [new] })
    else (status, none, w)

/-- The instance at an address, if it has not been freed. -/
def Watchdogs.find (w : Watchdogs) (handle : WatchdogHandle) : Option WatchdogInstance :=
  w.instances.find? (·.handle = handle)

/-- The table without an instance. -/
def removeInstance (instances : List WatchdogInstance) (handle : WatchdogHandle) : List WatchdogInstance :=
  instances.swapRemove fun i => i.handle = handle

/-- `watchdog_close`: it returns `MTC_SUCCESS` whatever the hypervisor says. -/
def watchdogClose (env : HypercallEnv) (file : RecordEnv) (now : Nat) (w : Watchdogs) :
    Option WatchdogHandle → WatchdogCall Watchdogs
  | none => .returns (recordWatchdogInstance file w)
  | some handle =>
    match w.find handle with
    | none => .dangles
    | some i =>
      let (_, _, w) := doWatchdogHypercall env now w i.id 0
      let w := { w with instances := removeInstance w.instances handle }
      .returns (recordWatchdogInstance file (if w.instances.length = 0 then doWatchdogClose w else w))

/-- `check_watchdog_timeout` finds that an instance should have expired; the product is one of 32-bit numbers. -/
def WatchdogInstance.overdue (i : WatchdogInstance) (now : Nat) : Bool :=
  decide (now - i.setTime > i.timeout * 1000 % 2 ^ 32)

/-- `watchdog_set`: the status, and what it leaves. -/
def watchdogSet (env : HypercallEnv) (now : Nat) (w : Watchdogs) (handle : Option WatchdogHandle) (timeout : Nat) :
    WatchdogCall (MtcStatus × Watchdogs) :=
  if w.watchdogMode ≠ .none && w.instances.any (·.overdue now) then .aborts
  else
    match handle with
    | none => .returns (mtcErrorWdInvalidHandle, w)
    | some handle =>
      match w.find handle with
      | none => .dangles
      | some i =>
        let (status, id, w) := doWatchdogHypercall env now w i.id timeout
        let new := { i with id, setTime := now, timeout, status }
        .returns (status, { w with instances := w.instances.map fun j => if j.handle = handle then new else j })

/-- The loop of `watchdog_selffence` over the instances. -/
def fenceInstances (env : Nat → HypercallEnv) (now : Nat) (w : Watchdogs) : List WatchdogInstance → Nat → Watchdogs
  | [], _ => w
  | i :: rest, wdi => fenceInstances env now (doWatchdogHypercall (env wdi) now w i.id wdFence).2.2 rest (wdi + 1)

/-- `watchdog_selffence` up to where it sleeps for good, with the mutex; `shutdown` is what its first hypercall meets. -/
def watchdogSelffence (shutdown : HypercallEnv) (env : Nat → HypercallEnv) (now : Nat) (w : Watchdogs) : WatchdogCall Watchdogs :=
  if w.watchdogMode ≠ .hypervisor then .aborts
  else
    let w := doDomainShutdownSelf shutdown w
    if w.down then .returns w
    else if w.instances = [] then .returns (doWatchdogHypercall (env 0) now w 0 wdFence).2.2
    else .returns (fenceInstances env now w w.instances 0)

end Xha
