/-
The State-File thread of one host (statefile.c): the cycle of `sfthread` with `write_hostspecific` and
`readsf`, one step for each section under the locks and for each access to the disk. Retries, timing and
latencies of the accesses are left to the environment; a failed access leaves memory and disk alone.
-/
import Xha.Com

namespace Xha

open Loop

/-! ## The State-File -/

/-- The global section. -/
structure SfGlobal where
  poolState : PoolState
  master : MtcUuid
  deriving DecidableEq

/-- A host-specific record. -/
structure SfHost where
  sequence : MtcU32
  excluded : Bool
  starting : Bool
  raw : RawData
  lm : LmFields
  smPhase : SmPhase
  weight : MtcU32
  deriving DecidableEq

/-- The State-File, on disk and as the buffer `StateFile` in memory. -/
structure SfImage where
  global : SfGlobal
  host : Nat → SfHost

def SfImage.setHost (f : SfImage) (i : Nat) (r : SfHost) : SfImage := { f with host := Function.update f.host i r }

/-- The status of an access, and of `readsf`. -/
inductive SfStatus
  | undefined | success | ioError | corruption | versionMismatch | genUuid | pendingWrite
  deriving DecidableEq, Repr

/-- `sfvar.hoststat[i]`. -/
structure HostStat where
  readonce : Bool
  sequence : MtcU32
  readclock : MtcClock
  updateclock : MtcClock

/-- `sfvar`. -/
structure SfVar where
  sequence : MtcU32
  hoststat : Nat → HostStat

/-- `iostatus` of `readsf`. -/
structure IoStatus where
  globalSection : SfStatus
  hostSection : Nat → SfStatus

def IoStatus.undefined : IoStatus := ⟨.undefined, fun _ => .undefined⟩

/-- `SF_IOATTEMPTS`. -/
def sfIoAttempts : Nat := 3

/-- Where the thread stands: between cycles, before and after the locked copy of `write_hostspecific`,
in attempt `attempt` of `readsf` before the access to section `section` (0 the global one, `i + 1` that of
host `i`), before the locked part of `readsf`, before `sf_writeglobal`. -/
inductive SfPc
  | waiting
  | copying (readable : Bool)
  | writing (readable excludedPendingWrite : Bool)
  | reading (attempt next : Nat) (iostatus : IoStatus)
  | updating (iostatus : IoStatus)
  | writingGlobal
  | terminated

/-- A daemon as its State-File thread sees it, and the disk. -/
structure SfWorld where
  clock : MtcClock
  disk : SfImage
  stateFile : SfImage
  sfvar : SfVar
  sm : ComDataSm
  hb : ComDataHb
  sf : ComDataSf
  readOnce : Bool
  pc : SfPc
  /-- The global sections this host has written, the last one first. -/
  globalWrites : List SfGlobal

/-! ## The cycle -/

/-- The start of a cycle: whether to write and to read is settled here. -/
def beginCycle (w : SfWorld) : Option SfWorld :=
  match w.pc with
  | .waiting =>
    if w.sf.ctl.enableSfWrite && w.readOnce then some { w with pc := .copying w.sf.ctl.enableSfRead }
    else if w.sf.ctl.enableSfRead then some { w with pc := .reading 0 0 .undefined }
    else some w
  | _ => none

/-- Where the thread goes after `write_hostspecific`. -/
def afterWrite (readable : Bool) : SfPc := if readable then .reading 0 0 .undefined else .waiting

/-- The record `write_hostspecific` copies from the objects. -/
def hostspecific (w : SfWorld) (me : Nat) : SfHost where
  sequence := w.sfvar.sequence
  excluded := w.sf.excluded.isOn me
  starting := w.sf.ctl.starting
  raw := ⟨w.sm.currentLiveset, w.sm.proposedLiveset, w.hb.hbdomain, w.sf.sfdomain⟩
  lm := w.sf.lm me
  smPhase := w.sm.phase
  weight := w.sm.commitedWeight

/-- The locked part of `write_hostspecific`. -/
def copyHostspecific (me : Nat) (w : SfWorld) : Option SfWorld :=
  match w.pc with
  | .copying readable =>
    some { w with
      stateFile := w.stateFile.setHost me (hostspecific w me)
      sfvar := { w.sfvar with sequence := w.sfvar.sequence + 1 }
      sf := { w.sf with
        modifiedMask := { w.sf.modifiedMask with excluded := false }
        smPhase := Function.update w.sf.smPhase me w.sm.phase
        weight := Function.update w.sf.weight me w.sm.commitedWeight }
      pc := .writing readable w.sf.modifiedMask.excluded }
  | _ => none

/-- `sf_writehostspecific` and what follows it. -/
def writeHostspecific (me : Nat) (status : SfStatus) (w : SfWorld) : Option SfWorld :=
  match w.pc with
  | .writing readable excludedPendingWrite =>
    if status = .success then
      some { w with disk := w.disk.setHost me (w.stateFile.host me), pc := afterWrite readable }
    else
      some { w with
        sf := { w.sf with
          modifiedMask := { w.sf.modifiedMask with excluded := excludedPendingWrite || w.sf.modifiedMask.excluded }
          sfAccess := false }
        pc := afterWrite readable }
  | _ => none

/-- The update of `hoststat[i]` after a successful read of the record of host `i`. -/
def HostStat.read (s : HostStat) (now : MtcClock) (sequence : MtcU32) : HostStat :=
  let s := { s with readclock := now }
  if s.readonce = false then { s with readonce := true, sequence := sequence }
  else if s.sequence ≠ sequence then { s with sequence := sequence, updateclock := s.readclock }
  else s

/-- Reading the record of host `i`. -/
def readHostspecific (me i : Nat) (w : SfWorld) : SfWorld :=
  let r := w.disk.host i
  let hoststat := Function.update w.sfvar.hoststat i ((w.sfvar.hoststat i).read w.clock r.sequence)
  { w with
    stateFile := w.stateFile.setHost i r
    sfvar :=
      { hoststat := hoststat
        -- the first read of the local record initializes the sequence number of the writes
        sequence := if (w.sfvar.hoststat i).readonce = false ∧ i = me then r.sequence else w.sfvar.sequence } }

/-- Whether every section of the configured hosts has been read. -/
def IoStatus.allRead (io : IoStatus) (n : Nat) : Bool :=
  io.globalSection = .success && (List.range n).all fun i => io.hostSection i = .success

/-- The next access of `readsf`: sections read successfully are skipped, and after the last section the
attempt ends. -/
def readNext (c : HaConfig) (status : SfStatus) (w : SfWorld) : Option SfWorld :=
  match w.pc with
  | .reading attempt 0 io =>
    if io.globalSection = .success then some { w with pc := .reading attempt 1 io }
    else
      let w := if status = .success then { w with stateFile := { w.stateFile with global := w.disk.global } } else w
      some { w with pc := .reading attempt 1 { io with globalSection := status } }
  | .reading attempt (i + 1) io =>
    if i < c.hostnum then
      if io.hostSection i = .success then some { w with pc := .reading attempt (i + 2) io }
      else
        let w := if status = .success then readHostspecific c.myIndex i w else w
        some { w with
          pc := .reading attempt (i + 2) { io with hostSection := Function.update io.hostSection i status } }
    else if io.allRead c.hostnum || attempt + 1 = sfIoAttempts then some { w with pc := .updating io }
    else some { w with pc := .reading (attempt + 1) 0 io }
  | _ => none

/-! ## The update of the objects -/

/-- One turn of the loop of `readsf` over the hosts. -/
def updateHost (me : Nat) (file : SfImage) (hoststat : Nat → HostStat) (psm : ComDataSm) (psf : ComDataSf) (i : Nat) :
    ComDataSf :=
  let r := file.host i
  { psf with
    lm := if i ≠ me then Function.update psf.lm i r.lm else psf.lm
    excluded := if i ≠ me ∨ psf.modifiedMask.excluded = false then psf.excluded.setBoolean i r.excluded else psf.excluded
    starting := psf.starting.setBoolean i r.starting
    raw := Function.update psf.raw i r.raw
    timeLastSf :=
      if !(!r.raw.currentLiveset.isOn i && psm.currentLiveset.isOn i) then
        Function.update psf.timeLastSf i (hoststat i).updateclock
      else psf.timeLastSf
    smPhase := Function.update psf.smPhase i (if i = me then psm.phase else r.smPhase)
    weight := Function.update psf.weight i (if i = me then psm.commitedWeight else r.weight) }

/-- The fields of the global section: a pending one goes to the buffer, the others come from it. -/
def updateGlobal (file : SfImage) (psf : ComDataSf) : SfStatus × SfImage × ComDataSf :=
  let (status, file, psf) :=
    if psf.modifiedMask.master then
      (SfStatus.pendingWrite, { file with global := { file.global with master := psf.master } },
        { psf with modifiedMask := { psf.modifiedMask with master := false } })
    else (SfStatus.success, file, { psf with master := file.global.master })
  if psf.modifiedMask.poolState then
    (.pendingWrite, { file with global := { file.global with poolState := psf.poolState } },
      { psf with modifiedMask := { psf.modifiedMask with poolState := false } })
  else (status, file, { psf with poolState := file.global.poolState })

/-- The status of a `readsf` that could not read everything. -/
def IoStatus.failure (io : IoStatus) (n : Nat) : SfStatus :=
  if io.globalSection = .genUuid then .genUuid
  else if io.globalSection = .versionMismatch then .versionMismatch
  else if io.globalSection ≠ .success then io.globalSection
  else (((List.range n).map io.hostSection).find? (· ≠ .success)).getD .undefined

/-- A corrupted section makes the failure a corruption. -/
def IoStatus.corrupted (io : IoStatus) (n : Nat) : Bool :=
  io.globalSection = .corruption || (List.range n).any fun i => io.hostSection i = .corruption

/-- The locked part of `readsf`, and what `sfthread` does with its status. -/
def updateObjects (c : HaConfig) (w : SfWorld) : Option SfWorld :=
  match w.pc with
  | .updating io =>
    if io.allRead c.hostnum then
      let psf := forRange c.hostnum w.sf (updateHost c.myIndex w.stateFile w.sfvar.hoststat w.sm)
      let r := updateGlobal w.stateFile { psf with sfAccess := true }
      if r.1 = .success then
        some { w with stateFile := r.2.1, sf := r.2.2, readOnce := true, pc := .waiting }
      else some { w with stateFile := r.2.1, sf := r.2.2, pc := .writingGlobal }
    else match io.failure c.hostnum with
      | .genUuid => some { w with sf := { w.sf with sfAccess := false, sfCorrupted := false }, pc := .terminated }
      | .versionMismatch => some { w with sf := { w.sf with sfAccess := false, sfCorrupted := false }, pc := .terminated }
      | _ =>
        some { w with
          sf := { w.sf with sfAccess := false, sfCorrupted := io.corrupted c.hostnum }
          readOnce := false
          pc := .waiting }
  | _ => none

/-- `sf_writeglobal`. -/
def writeGlobal (status : SfStatus) (w : SfWorld) : Option SfWorld :=
  match w.pc with
  | .writingGlobal =>
    if status = .success then
      some { w with
        disk := { w.disk with global := w.stateFile.global }
        globalWrites := w.stateFile.global :: w.globalWrites
        pc := .waiting }
    else some { w with pc := .waiting }
  | _ => none

/-! ## The requests of other threads -/

/-- `sf_set_excluded`. -/
def sfSetExcluded (me : Nat) (excluded : Bool) (psf : ComDataSf) : ComDataSf :=
  { psf with
    modifiedMask := { psf.modifiedMask with excluded := true }
    excluded := psf.excluded.setBoolean me excluded }

/-- `sf_set_pool_state`. -/
def sfSetPoolState (poolState : PoolState) (psf : ComDataSf) : ComDataSf :=
  { psf with modifiedMask := { psf.modifiedMask with poolState := true }, poolState := poolState }

/-- `sf_set_master`. -/
def sfSetMaster (master : MtcUuid) (psf : ComDataSf) : ComDataSf :=
  { psf with modifiedMask := { psf.modifiedMask with master := true }, master := master }

/-- `sf_initialize0`: the daemon before its first cycle, on whatever the disk holds. -/
def SfWorld.initial (me : Nat) (clock : MtcClock) (disk : SfImage) (buffer : SfImage) (sequence : MtcU32) : SfWorld where
  clock := clock
  disk := disk
  stateFile := buffer
  sfvar := ⟨sequence, fun _ => ⟨false, sequence, -1, -1⟩⟩
  sm := .initial
  hb := .initial
  sf := .initial me
  readOnce := false
  pc := .waiting
  globalWrites := []

end Xha
