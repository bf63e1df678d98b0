/-
The common objects of the daemon (sm.h) and the private data of the state manager (sm.c `smvar`):
what each host knows about itself and, in the `raw` records, about the others. Fields that no
modelled function reads are left out (times since the last receipt, latencies, error strings).
-/
import Mathlib.Algebra.Group.Nat.Defs
import Xha.HostMap

namespace Xha

/-- `MTC_U32`. -/
abbrev MtcU32 := BitVec 32

abbrev Byte := BitVec 8

/-- `MTC_CLOCK`: milliseconds. -/
abbrev MtcClock := Int

/-- `ONE_SEC`. -/
def oneSec : Nat := 1000

/-- A timeout `T * ONE_SEC`, in 32-bit arithmetic. -/
def timeoutMs (seconds : Nat) : MtcClock := ((seconds * oneSec % 2 ^ 32 : Nat) : MtcClock)

/-- The time since a stamp in 32 bits; -1 if there is none. -/
def timeSince (now time : MtcClock) : BitVec 32 := if time < 0 then -1 else BitVec.ofInt 32 (now - time)

/-- `MTC_UUID`: 32 characters, no terminator. -/
abbrev MtcUuid := List Char

/-- The configuration a host runs with (config.h): the common part and the local index. -/
structure HaConfig where
  hostnum : Nat
  myIndex : Nat
  /-- `_T1`, `_T2`: heartbeat and State-File timeouts, in seconds. -/
  heartbeatTimeout : Nat := 60
  statefileTimeout : Nat := 60
  hostnum_le : hostnum ≤ maxHostNum
  myIndex_lt : myIndex < hostnum

/-- The same pool seen from host `i`. -/
def HaConfig.at (c : HaConfig) (i : Nat) (h : i < c.hostnum) : HaConfig := { c with myIndex := i, myIndex_lt := h }

/-- A pool of two hosts, seen from the first one. -/
def HaConfig.pair : HaConfig where
  hostnum := 2
  myIndex := 0
  hostnum_le := by decide
  myIndex_lt := by decide

/-- A pool of three hosts, seen from the first one. -/
def HaConfig.triple : HaConfig where
  hostnum := 3
  myIndex := 0
  hostnum_le := by decide
  myIndex_lt := by decide

/-- `SM_PHASE`. -/
inductive SmPhase
  | starting | started | aborted | fhready | fh1 | fh1done | fh2 | fh2done | fh3 | fh3done | fh4 | fh4done
  deriving DecidableEq, Repr

/-- The numeric value of a phase (`SM_PHASE_STARTING` is 0). -/
def SmPhase.code : SmPhase → Nat
  | .starting => 0 | .started => 1 | .aborted => 2 | .fhready => 3 | .fh1 => 4 | .fh1done => 5
  | .fh2 => 6 | .fh2done => 7 | .fh3 => 8 | .fh3done => 9 | .fh4 => 10 | .fh4done => 11

/-- `MTC_FENCING_MODE`. -/
inductive FencingMode
  | none | armed | disarmRequested | disarmed
  deriving DecidableEq, Repr

/-- `RAW_DATA`: the livesets and domains a host last reported about itself. -/
structure RawData where
  currentLiveset : HostMap
  proposedLiveset : HostMap
  hbdomain : HostMap
  sfdomain : HostMap
  deriving DecidableEq, Repr

/-- A record nobody has written yet. -/
def RawData.initial : RawData := ⟨.empty, .empty, .empty, .empty⟩

/-- `COM_DATA_SM`. -/
structure ComDataSm where
  currentLiveset : HostMap
  proposedLiveset : HostMap
  fencing : FencingMode
  phase : SmPhase
  sr2 : Bool
  sfAccess : HostMap
  sfCorrupted : HostMap
  weight : MtcU32
  commitedWeight : MtcU32

/-- The object `sm_initialize0` creates. -/
def ComDataSm.initial : ComDataSm where
  currentLiveset := .empty
  proposedLiveset := .empty
  fencing := .none
  phase := .starting
  sr2 := false
  sfAccess := .empty
  sfCorrupted := .empty
  weight := 0
  commitedWeight := 0

/-- `COM_DATA_HB.ctl`. -/
structure HbCtl where
  enableHbSend : Bool
  enableHbReceive : Bool
  join : Bool
  fenceRequest : Bool

/-- `COM_DATA_HB`. -/
structure ComDataHb where
  ctl : HbCtl
  timeLastHb : Nat → MtcClock
  hbdomain : HostMap
  notjoining : HostMap
  raw : Nat → RawData
  sfAccelerate : Bool
  smPhase : Nat → SmPhase

/-- The object `hb_initialize0` creates. -/
def ComDataHb.initial : ComDataHb where
  ctl := ⟨false, false, false, false⟩
  timeLastHb _ := -1
  hbdomain := .empty
  notjoining := .empty
  raw _ := .initial
  sfAccelerate := false
  smPhase _ := .starting

/-- `COM_DATA_SF.lm[i]`: the lock manager's request flag of host `i` and the hosts it grants. -/
structure LmFields where
  request : Bool
  grant : HostMap
  deriving DecidableEq, Repr

/-- `SF_MODIFIED_MASK_*`: the fields changed in memory and not yet on disk. -/
structure ModifiedMask where
  poolState : Bool
  master : Bool
  excluded : Bool
  deriving DecidableEq, Repr

/-- `COM_DATA_SF.ctl`. -/
structure SfCtl where
  enableSfWrite : Bool
  enableSfRead : Bool
  starting : Bool

/-- The pool states (statefile.h); the State-File can hold any 32-bit value. -/
abbrev PoolState := MtcU32

def sfStateNone : PoolState := 0
def sfStateInit : PoolState := 1
def sfStateActive : PoolState := 2
def sfStateInvalid : PoolState := 3

/-- `COM_DATA_SF`. -/
structure ComDataSf where
  modifiedMask : ModifiedMask
  ctl : SfCtl
  lm : Nat → LmFields
  poolState : PoolState
  master : MtcUuid
  sfAccess : Bool
  sfCorrupted : Bool
  timeLastSf : Nat → MtcClock
  excluded : HostMap
  starting : HostMap
  raw : Nat → RawData
  sfdomain : HostMap
  smPhase : Nat → SmPhase
  weight : Nat → MtcU32

/-- `lm_initialize_lm_fields`: nothing requested, and only the local host grants, to everybody. -/
def lmInitializeLmFields (me : Nat) : Nat → LmFields :=
  Function.update (fun _ => ⟨false, .empty⟩) me ⟨false, .full⟩

/-- The object `sf_initialize0` creates. -/
def ComDataSf.initial (me : Nat) : ComDataSf where
  modifiedMask := ⟨false, false, false⟩
  ctl := ⟨false, false, false⟩
  lm := lmInitializeLmFields me
  poolState := sfStateNone
  master := []
  sfAccess := false
  sfCorrupted := false
  timeLastSf _ := -1
  excluded := .empty
  starting := .empty
  raw _ := .initial
  sfdomain := .empty
  smPhase _ := .starting
  weight _ := 0

/-- `smvar` (sm.c). -/
structure SmVar where
  phase : SmPhase
  needFh : Bool
  joinBlock : Bool
  lastHbdomain : HostMap
  lastSfdomain : HostMap
  fencing : FencingMode
  sr2 : Bool
  fhSleepExtend : Bool
  stableHb : ComDataHb
  stableSf : ComDataSf

/-- The state manager's data when the daemon starts. -/
def SmVar.initial (me : Nat) : SmVar where
  phase := .starting
  needFh := false
  joinBlock := false
  lastHbdomain := .empty
  lastSfdomain := .empty
  fencing := .none
  sr2 := false
  fhSleepExtend := false
  stableHb := .initial
  stableSf := .initial me

/-- All a host keeps in memory: the three common objects and `smvar`. -/
structure Host where
  sm : ComDataSm
  hb : ComDataHb
  sf : ComDataSf
  smvar : SmVar

def Host.initial (me : Nat) : Host := ⟨.initial, .initial, .initial me, .initial me⟩

/-- Releasing the writer lock of the SM object runs `sm_sm_updated`: a requested disarm takes
effect, and `smvar.SR2` follows the object. -/
def Host.smWriterUnlock (h : Host) : Host :=
  let h := if h.sm.fencing = .disarmRequested then
      { h with sm := { h.sm with fencing := .disarmed }, smvar := { h.smvar with fencing := .disarmed } }
    else h
  { h with smvar := { h.smvar with sr2 := h.sm.sr2 } }

/-- What disarm_fencing does to a fencing mode. -/
def requestDisarm (fencing : FencingMode) : FencingMode :=
  if fencing = .armed ∨ fencing = .none then .disarmRequested else fencing

/-- The section of `script_service_do_disarm_fencing` on the SM object. -/
def Host.disarm (h : Host) : Host :=
  { h with sm := { h.sm with fencing := requestDisarm h.sm.fencing } : Host }.smWriterUnlock

@[simp] theorem Host.smWriterUnlock_hb (h : Host) : h.smWriterUnlock.hb = h.hb := by
  unfold smWriterUnlock; split <;> rfl

@[simp] theorem Host.smWriterUnlock_sf (h : Host) : h.smWriterUnlock.sf = h.sf := by
  unfold smWriterUnlock; split <;> rfl

@[simp] theorem Host.disarm_hb (h : Host) : h.disarm.hb = h.hb := by
  rw [disarm, smWriterUnlock_hb]

@[simp] theorem Host.disarm_sf (h : Host) : h.disarm.sf = h.sf := by
  rw [disarm, smWriterUnlock_sf]

end Xha
