/-
The command that sets up the State-File (writestatefile.c): it clears the file and writes new sections, or changes the
pool state or the excluded flag of the local host in the sections that are there. A sequence of commands does to the
file what it does to the record of a pool (`commands_refine_pool`), one command at a time, and a command that fails
leaves it alone (`failed_command_leaves_state`).
-/
import Xha.StateFile.Kept
import Xha.Config.Accepted

namespace Xha

open Region

/-! ## The process -/

/-- The State-File, the buffer `StateFile` of the process, and the number of its accesses. -/
structure SfProcess where
  file : List Byte
  global : SfSection
  host : Nat → SfSection
  accesses : Nat

/-- After `bzero(&StateFile, sizeof(StateFile))`. -/
def SfProcess.start (file : List Byte) : SfProcess := ⟨file, blankSection, fun _ => blankSection, 0⟩

/-- The bytes of the buffer. -/
def SfProcess.bytes (p : SfProcess) : List Byte :=
  p.global.bytes ++ (List.range maxHostNum).flatMap fun host => (p.host host).bytes

/-- `sizeof(StateFile)`. -/
def stateFileSize : Nat := lengthGlobal + maxHostNum * lengthHostSpecific

/-- What a run of the command ends with: the status of an access, `MTC_ERROR_SM_INVALID_POOL_STATE`, or
`MTC_ERROR_INVALID_PARAMETER`. -/
inductive SfCommandStatus
  | sf (status : SfStatus)
  | invalidPoolState
  | invalidParameter
  deriving DecidableEq

/-- `UUID_cpy` from the configuration. -/
def uuidCpy (uuid : MtcUuid) : SfUuid :=
  ⟨((uuid.map fun (chr : Char) => BitVec.ofNat 8 chr.toNat) ++ List.replicate mtcUuidSize 0).take mtcUuidSize, by simp⟩

/-- `UUID_zero`. -/
def uuidZero : MtcUuid := List.replicate mtcUuidSize '0'

namespace SfProcess

variable (io : Nat → SfDescriptor) (fuel : Nat) (p : SfProcess)

/-- `sf_read*` into the buffer, with the descriptor as it is for this access. -/
def readGlobal (expectedUuid : Option MtcUuid) : SfCall (SfStatus × SfProcess) :=
  (sfReadglobal (io p.accesses) p.file p.global expectedUuid fuel).bind fun (status, pglobal) =>
    .returned (status, { p with global := pglobal, accesses := p.accesses + 1 })

def readHost (hostIndex : Nat) : SfCall (SfStatus × SfProcess) :=
  (sfReadhostspecific (io p.accesses) p.file hostIndex (p.host hostIndex) fuel).bind fun (status, phost) =>
    .returned (status, { p with host := Function.update p.host hostIndex phost, accesses := p.accesses + 1 })

def writeGlobal : SfCall (SfStatus × SfProcess) :=
  (sfWriteglobal (io p.accesses) p.file p.global).bind fun (status, file, pglobal) =>
    .returned (status, { p with file, global := pglobal, accesses := p.accesses + 1 })

def writeHost (hostIndex : Nat) : SfCall (SfStatus × SfProcess) :=
  (sfWritehostspecific (io p.accesses) p.file hostIndex (p.host hostIndex)).bind fun (status, file, phost) =>
    .returned (status, { p with file, host := Function.update p.host hostIndex phost, accesses := p.accesses + 1 })

/-- `sf_write` of the whole buffer. -/
def writeAll : SfCall (SfStatus × SfProcess) :=
  ((io p.accesses).sfWrite p.file p.bytes stateFileSize 0).bind fun (status, file) =>
    .returned (status, { p with file, accesses := p.accesses + 1 })

/-- The fields of the global section that the process sets. -/
def setGlobal (f : SfGlobalBody → SfGlobalBody) : SfProcess :=
  let d := (globalFormat none).data p.global
  { p with global := (globalFormat none).setData p.global { d with body := f d.body } }

/-- The fields of the record of a host that the process sets. -/
def setHost (hostIndex : Nat) (f : SfHostBody → SfHostBody) : SfProcess :=
  let d := (hostFormat hostIndex).data (p.host hostIndex)
  let phost := (hostFormat hostIndex).setData (p.host hostIndex) { d with body := f d.body }
  { p with host := Function.update p.host hostIndex phost }

/-- The loop of `global_init_state` over the hosts. -/
def writeHosts (p : SfProcess) : List Nat → SfCall (SfStatus × SfProcess)
  | [] => .returned (.success, p)
  | host :: hosts => (p.writeHost io host).bind fun (status, p) =>
    if status ≠ .success then .returned (status, p) else writeHosts p hosts

end SfProcess

section

variable (c : HaConfigData) (io : Nat → SfDescriptor) (fuel : Nat) (p : SfProcess)

/-- The fields that `global_init_state` sets. -/
def globalInit (body : SfGlobalBody) : SfGlobalBody :=
  { body with
    genUuid := uuidCpy c.common.generationUuid
    poolState := sfStateInit
    master := uuidCpy uuidZero
    configHosts := BitVec.ofNat 32 c.common.hostnum }

def globalInitState : SfCall (SfStatus × SfProcess) :=
  (p.writeAll io).bind fun (status, p) =>
    if status ≠ .success then .returned (status, p)
    else ((p.setGlobal (globalInit c)).writeGlobal io).bind fun (status, p) =>
      if status ≠ .success then .returned (status, p) else p.writeHosts io (List.range maxHostNum)

def globalReadAndSetState (newstate : PoolState) : SfCall (SfStatus × SfProcess) :=
  (p.readGlobal io fuel none).bind fun (status, p) =>
    if status ≠ .success then .returned (status, p)
    else (p.setGlobal fun body => { body with poolState := newstate }).writeGlobal io

def hostSpecificEx (excluded : Bool) : SfCall (SfCommandStatus × SfProcess) :=
  let myIndex := c.localConfig.localhostIndex.toNat
  (p.readGlobal io fuel none).bind fun (status, p) =>
    if status ≠ .success then .returned (.sf status, p)
    else (p.readHost io fuel myIndex).bind fun (status, p) =>
      if status ≠ .success then .returned (.sf status, p)
      else if ((globalFormat none).data p.global).body.poolState ≠ sfStateActive then .returned (.invalidPoolState, p)
      else ((p.setHost myIndex fun body => { body with excluded := if excluded then 1 else 0 }).writeHost io myIndex).bind
        fun (status, p) => .returned (.sf status, p)

/-- `main` with its first argument, once the State-File is open: what it ends with, and the file it leaves. -/
def writestatefile (file : List Byte) (arg : String) : SfCall (SfCommandStatus × List Byte) :=
  let p := SfProcess.start file
  let sf (call : SfCall (SfStatus × SfProcess)) : SfCall (SfCommandStatus × SfProcess) :=
    call.bind fun (status, p) => .returned (.sf status, p)
  (if arg = "setinit" then sf (globalInitState c io p)
    else if arg = "setactive" then sf (globalReadAndSetState io fuel p sfStateActive)
    else if arg = "setinvalid" then sf (globalReadAndSetState io fuel p sfStateInvalid)
    else if arg = "setex" then hostSpecificEx c io fuel p true
    else if arg = "clearex" then hostSpecificEx c io fuel p false
    else .returned (.invalidParameter, p)).bind fun (status, p) => .returned (status, p.file)

end

/-! ## What the commands are for -/

/-- A command that is known by its first argument. -/
inductive SfCommand
  | setinit
  | setState (newstate : PoolState)
  | setEx (excluded : Bool)
  deriving DecidableEq

def SfCommand.ofArg (arg : String) : Option SfCommand :=
  if arg = "setinit" then some .setinit
  else if arg = "setactive" then some (.setState sfStateActive)
  else if arg = "setinvalid" then some (.setState sfStateInvalid)
  else if arg = "setex" then some (.setEx true)
  else if arg = "clearex" then some (.setEx false)
  else none

/-- A record with nothing in it. -/
def SfHostBody.blank : SfHostBody :=
  ⟨0, 0, .replicate mtcUuidSize 0, 0, 0, .replicate maxHostNum 0, .replicate maxHostNum 0, 0, 0, 0, 0, 0, 0, 0, 0, 0⟩

/-- A pool that has just been set up. -/
def SfPool.initial (c : HaConfigData) : SfPool where
  global :=
    { version := sfVersion
      lengthGlobal := BitVec.ofNat 32 Xha.lengthGlobal
      lengthHostSpecfic := BitVec.ofNat 32 lengthHostSpecific
      maxHosts := BitVec.ofNat 32 maxHostNum
      genUuid := uuidCpy c.common.generationUuid
      poolState := sfStateInit
      master := uuidCpy uuidZero
      configHosts := BitVec.ofNat 32 c.common.hostnum }
  host _ := .blank

/-- A command on the pool. -/
def SfPool.after (c : HaConfigData) (pool : SfPool) : Option SfCommand → SfCommandStatus × SfPool
  | some .setinit => (.sf .success, .initial c)
  | some (.setState newstate) => (.sf .success, { pool with global := { pool.global with poolState := newstate } })
  | some (.setEx excluded) =>
    let me := c.localConfig.localhostIndex.toNat
    let body := { pool.host me with excluded := if excluded then 1 else 0 }
    if pool.global.poolState ≠ sfStateActive then (.invalidPoolState, pool)
    else (.sf .success, { pool with host := Function.update pool.host me body })
  | none => (.invalidParameter, pool)

/-! ## The steps of a command -/

/-- The section that is in a blank buffer. -/
theorem data_blankSection (i : Nat) : ((hostFormat i).data blankSection).body = .blank := by
  have hbytes : blankSection.bytes.take (dataLayout hostBodyLayout).size =
      (dataLayout hostBodyLayout).encode ⟨0, 0, 0, .blank, 0⟩ := by
    decide +kernel
  have hdata : (hostFormat i).data blankSection =
      (dataLayout hostBodyLayout).decode (blankSection.bytes.take (dataLayout hostBodyLayout).size) := by
    simp only [SfFormat.data, SfFormat.size, hostFormat]
  rw [hdata, hbytes]
  exact congrArg SfData.body ((dataLayout hostBodyLayout).decode_encode _)

theorem SfDescriptor.WritesAll.mono {d : SfDescriptor} {len len' : Nat} (h : d.WritesAll len) (hle : len' ≤ len) :
    d.WritesAll len' := by
  obtain ⟨n, hn, hwrites⟩ := h.writes
  exact ⟨h.seeks, n, le_trans hle hn, hwrites⟩

/-- No call fails on the descriptor, and each `write` writes everything. -/
structure SfDescriptor.Whole (d : SfDescriptor) : Prop where
  reads : d.Reads
  writes : d.WritesAll stateFileSize

theorem SfDescriptor.Whole.section {β : Type} {d : SfDescriptor} (h : d.Whole) (F : SfFormat β) : d.WritesAll F.rounded :=
  h.writes.mono (le_trans F.fits (by decide))

/-- A command goes on after an access that is a success. -/
theorem ite_success {α : Type} (fail next : α) : (if SfStatus.success ≠ .success then fail else next) = next :=
  if_neg (not_not.2 rfl)

namespace SfProcess

variable {io : Nat → SfDescriptor} {p : SfProcess} {pool : SfPool}

theorem readGlobal_yields (hio : ∀ n, (io n).Whole) (h : pool.KeptIn p.file) :
    ∃ p', SfCall.Yields (fun fuel => p.readGlobal io fuel none) (.success, p') ∧ p'.file = p.file ∧
      (globalFormat none).data p'.global = (globalFormat none).sealed pool.global := by
  obtain ⟨q, hread, hdata⟩ := h.global.read (hio p.accesses).reads rfl p.global
  exact ⟨_, hread.bind (.of_returned _), rfl, hdata⟩

theorem readHost_yields (hio : ∀ n, (io n).Whole) (h : pool.KeptIn p.file) {i : Nat} (hi : i < maxHostNum) :
    ∃ p', SfCall.Yields (fun fuel => p.readHost io fuel i) (.success, p') ∧ p'.file = p.file ∧ p'.global = p.global ∧
      (hostFormat i).data (p'.host i) = (hostFormat i).sealed (pool.host i) := by
  obtain ⟨q, hread, hdata⟩ := (h.host i hi).read (hio p.accesses).reads rfl (p.host i)
  refine ⟨_, hread.bind (.of_returned _), rfl, rfl, ?_⟩
  dsimp only
  rw [Function.update_self, hdata]

theorem writeGlobal_returns (hio : ∀ n, (io n).Whole) (p : SfProcess) :
    ∃ p', p.writeGlobal io = .returned (.success, p') ∧ p'.host = p.host ∧
      (globalFormat none).Keeps p'.file ((globalFormat none).data p.global).body ∧
      ∀ i b, (hostFormat i).Keeps p.file b → (hostFormat i).Keeps p'.file b := by
  obtain ⟨file', hwrite, hkeeps, hother⟩ :=
    (globalFormat none).write_keeps ((hio p.accesses).section (globalFormat none)) p.file p.global
  have hcall : p.writeGlobal io = .returned (.success,
      { p with file := file', global := (globalFormat none).written p.global, accesses := p.accesses + 1 }) := by
    rw [writeGlobal, sfWriteglobal, hwrite]
    rfl
  refine ⟨_, hcall, rfl, hkeeps, fun i b hb => hother (hostFormat i) b (.inl ?_) hb⟩
  simp only [hostFormat, globalFormat]
  omega

theorem writeHost_returns (hio : ∀ n, (io n).Whole) (p : SfProcess) (i : Nat) :
    ∃ p', p.writeHost io i = .returned (.success, p') ∧ (∀ j, j ≠ i → p'.host j = p.host j) ∧
      (hostFormat i).Keeps p'.file ((hostFormat i).data (p.host i)).body ∧
      (∀ b, (globalFormat none).Keeps p.file b → (globalFormat none).Keeps p'.file b) ∧
      ∀ j b, j ≠ i → (hostFormat j).Keeps p.file b → (hostFormat j).Keeps p'.file b := by
  obtain ⟨file', hwrite, hkeeps, hother⟩ :=
    (hostFormat i).write_keeps ((hio p.accesses).section (hostFormat i)) p.file (p.host i)
  have hcall : p.writeHost io i = .returned (.success,
      { p with
        file := file'
        host := Function.update p.host i ((hostFormat i).written (p.host i))
        accesses := p.accesses + 1 }) := by
    rw [writeHost, sfWritehostspecific, hwrite]
    rfl
  refine ⟨_, hcall, fun j hj => Function.update_of_ne hj .., hkeeps,
    fun b hb => hother (globalFormat none) b (.inr ?_) hb, fun j b hj hb => hother (hostFormat j) b (slots_apart hj.symm) hb⟩
  simp only [hostFormat, globalFormat]
  omega

theorem writeAll_returns (hio : ∀ n, (io n).Whole) (p : SfProcess) :
    ∃ p', p.writeAll io = .returned (.success, p') ∧ p'.global = p.global ∧ p'.host = p.host := by
  obtain ⟨hseeks, n, -, hwrites⟩ := (hio p.accesses).writes
  have htaken : (io p.accesses).taken = some n := by rw [SfDescriptor.taken, hseeks, if_pos rfl, hwrites]
  obtain ⟨file', hwrite⟩ : ∃ file', (io p.accesses).sfWrite p.file p.bytes stateFileSize ((0 : Nat) : Int) =
      .returned (.success, file') := by
    rw [SfDescriptor.sfWrite_eq rfl, htaken]
    exact ⟨_, rfl⟩
  refine ⟨{ p with file := file', accesses := p.accesses + 1 }, ?_, rfl, rfl⟩
  exact congrArg (SfCall.bind · fun r => .returned (r.1, { p with file := r.2, accesses := p.accesses + 1 })) hwrite

theorem data_setGlobal (f : SfGlobalBody → SfGlobalBody) (p : SfProcess) :
    ((globalFormat none).data (p.setGlobal f).global).body = f ((globalFormat none).data p.global).body :=
  congrArg SfData.body ((globalFormat none).data_setData p.global _)

theorem data_setHost (f : SfHostBody → SfHostBody) (p : SfProcess) (i : Nat) :
    ((hostFormat i).data ((p.setHost i f).host i)).body = f ((hostFormat i).data (p.host i)).body := by
  unfold setHost
  dsimp only
  rw [Function.update_self]
  exact congrArg SfData.body ((hostFormat i).data_setData (p.host i) _)

/-- The records of the hosts that are written are in the State-File, and what was kept elsewhere still is. -/
theorem writeHosts_returns (hio : ∀ n, (io n).Whole) (hosts : List Nat) (hnodup : hosts.Nodup) (p : SfProcess) :
    ∃ p', p.writeHosts io hosts = .returned (.success, p') ∧
      (∀ i ∈ hosts, (hostFormat i).Keeps p'.file ((hostFormat i).data (p.host i)).body) ∧
      (∀ b, (globalFormat none).Keeps p.file b → (globalFormat none).Keeps p'.file b) ∧
      ∀ i b, i ∉ hosts → (hostFormat i).Keeps p.file b → (hostFormat i).Keeps p'.file b := by
  induction hosts generalizing p with
  | nil => exact ⟨p, rfl, fun _ => (nomatch ·), fun _ hb => hb, fun _ _ _ hb => hb⟩
  | cons host hosts ih =>
    obtain ⟨hnotMem, hrest⟩ := List.nodup_cons.1 hnodup
    obtain ⟨p', hwrite, hsame, hkeeps, hglobal, hother⟩ := writeHost_returns hio p host
    obtain ⟨p'', hwrites, hkeeps', hglobal', hother'⟩ := ih hrest p'
    refine ⟨p'', ?_, ?_, fun b hb => hglobal' b (hglobal b hb), fun i b hi hb => ?_⟩
    · rw [writeHosts, hwrite]
      exact hwrites
    · intro i hi
      rcases List.mem_cons.1 hi with rfl | hmem
      · exact hother' i _ hnotMem hkeeps
      · have hne : i ≠ host := by
          rintro rfl
          exact hnotMem hmem
        rw [← hsame i hne]
        exact hkeeps' i hmem
    · obtain ⟨hne, hi⟩ := List.mem_cons.not.1 hi |> not_or.1
      exact hother' i b hi (hother i b hne hb)

end SfProcess

/-! ## The commands -/

section

variable {c : HaConfigData} {io : Nat → SfDescriptor} {p : SfProcess} {pool : SfPool}

theorem sealed_congr {β : Type} (F : SfFormat β) {b b' : β} (h : F.stamp b = F.stamp b') : F.sealed b = F.sealed b' := by
  unfold SfFormat.sealed
  rw [h]

theorem SfFormat.Keeps.congr {β : Type} {F : SfFormat β} {file : List Byte} {b b' : β} (h : F.Keeps file b)
    (hb : F.stamp b = F.stamp b') : F.Keeps file b' :=
  ⟨h.inside, h.stored.trans (sealed_congr F hb)⟩

theorem stamp_globalInit (c : HaConfigData) (body : SfGlobalBody) :
    (globalFormat none).stamp (globalInit c body) = (globalFormat none).stamp (SfPool.initial c).global := rfl

/-- `setinit` on any file. -/
theorem globalInitState_returns (hio : ∀ n, (io n).Whole)
    (hhost : ∀ i, p.host i = blankSection) :
    ∃ p', globalInitState c io p = .returned (.success, p') ∧ (SfPool.initial c).KeptIn p'.file := by
  -- what the first write leaves does not matter
  obtain ⟨p₁, hclear, -, hhost₁⟩ := SfProcess.writeAll_returns hio p
  obtain ⟨p₂, hwrite, hhost₂, hkeeps, -⟩ := SfProcess.writeGlobal_returns hio (p₁.setGlobal (globalInit c))
  obtain ⟨p₃, hhosts, hrecords, hstays, -⟩ := SfProcess.writeHosts_returns hio (List.range maxHostNum) List.nodup_range p₂
  refine ⟨p₃, ?_, rfl, ?_, ?_⟩
  · rw [globalInitState, SfCall.returned_bind hclear]
    dsimp only
    rw [if_neg (not_not.2 rfl), SfCall.returned_bind hwrite]
    dsimp only
    rw [if_neg (not_not.2 rfl), hhosts]
  · apply hstays
    rw [SfProcess.data_setGlobal] at hkeeps
    exact hkeeps.congr (stamp_globalInit c _)
  · intro i hi
    have hblank : p₂.host i = blankSection := by rw [hhost₂, ← hhost i, ← hhost₁]; rfl
    have hrecord := hrecords i (List.mem_range.2 hi)
    rw [hblank, data_blankSection] at hrecord
    exact hrecord

/-- `setactive` and `setinvalid`. -/
theorem globalReadAndSetState_yields (hio : ∀ n, (io n).Whole) (h : pool.KeptIn p.file) (newstate : PoolState) :
    ∃ p', SfCall.Yields (fun fuel => globalReadAndSetState io fuel p newstate) (.success, p') ∧
      SfPool.KeptIn { pool with global := { pool.global with poolState := newstate } } p'.file := by
  obtain ⟨p₁, hread, hfile, hdata⟩ := SfProcess.readGlobal_yields hio h
  let p₂ := p₁.setGlobal fun body => { body with poolState := newstate }
  obtain ⟨p₃, hwrite, -, hkeeps, hother⟩ := SfProcess.writeGlobal_returns hio p₂
  refine ⟨p₃, hread.bind ?_, ?_, ?_, fun i hi => hother i _ ?_⟩
  · simp only [ite_success]
    rw [hwrite]
    exact .of_returned _
  · have hstamped := h.stamped
    generalize pool.global = global at hstamped ⊢
    rw [← hstamped]
    rfl
  · rw [SfProcess.data_setGlobal, hdata] at hkeeps
    exact hkeeps.congr rfl
  · have hsame : p₂.file = p.file := hfile
    rw [hsame]
    exact h.host i hi

/-- `setex` and `clearex`. -/
theorem hostSpecificEx_yields (hio : ∀ n, (io n).Whole) (hc : c.WellFormed) (h : pool.KeptIn p.file) (excluded : Bool) :
    ∃ p', SfCall.Yields (fun fuel => hostSpecificEx c io fuel p excluded) ((pool.after c (some (.setEx excluded))).1, p') ∧
      (pool.after c (some (.setEx excluded))).2.KeptIn p'.file := by
  have hme : c.localConfig.localhostIndex.toNat < maxHostNum := lt_of_lt_of_le hc.localhost c.common.hostnum_le
  obtain ⟨p₁, hread, hfile, hdata⟩ := SfProcess.readGlobal_yields hio h
  have h₁ : pool.KeptIn p₁.file := hfile.symm ▸ h
  obtain ⟨p₂, hreadHost, hfile₂, hglobal₂, hdata₂⟩ := SfProcess.readHost_yields hio h₁ hme
  have h₂ : pool.KeptIn p₂.file := hfile₂.symm ▸ h₁
  have hstate : ((globalFormat none).data p₂.global).body.poolState = pool.global.poolState := by
    rw [hglobal₂, hdata]
    rfl
  by_cases hactive : pool.global.poolState ≠ sfStateActive
  · rw [SfPool.after, if_pos hactive]
    refine ⟨p₂, hread.bind ?_, h₂⟩
    simp only [ite_success]
    refine hreadHost.bind ?_
    simp only [ite_success]
    rw [hstate, if_pos hactive]
    exact .of_returned _
  · rw [SfPool.after, if_neg hactive]
    let p₃ := p₂.setHost c.localConfig.localhostIndex.toNat fun body => { body with excluded := if excluded then 1 else 0 }
    obtain ⟨p₄, hwrite, -, hkeeps, hstays, hother⟩ :=
      SfProcess.writeHost_returns hio p₃ c.localConfig.localhostIndex.toNat
    refine ⟨p₄, hread.bind ?_, h.stamped, hstays _ h₂.global, fun i hi => ?_⟩
    · simp only [ite_success]
      refine hreadHost.bind ?_
      simp only [ite_success]
      rw [hstate, if_neg hactive, hwrite]
      exact .of_returned _
    · by_cases hi' : i = c.localConfig.localhostIndex.toNat
      · subst hi'
        rw [SfProcess.data_setHost, hdata₂] at hkeeps
        dsimp only
        rw [Function.update_self]
        exact hkeeps
      · dsimp only
        rw [Function.update_of_ne hi']
        exact hother i _ hi' (h₂.host i hi)

/-- One run of the command does to the State-File what its command does to the pool. -/
theorem writestatefile_yields (hio : ∀ n, (io n).Whole) (hc : c.WellFormed) {file : List Byte} {arg : String}
    (h : SfCommand.ofArg arg = some .setinit ∨ pool.KeptIn file) :
    ∃ file', SfCall.Yields (fun fuel => writestatefile c io fuel file arg) ((pool.after c (SfCommand.ofArg arg)).1, file') ∧
      (pool.after c (SfCommand.ofArg arg)).2.KeptIn file' := by
  have hkept : SfCommand.ofArg arg ≠ some .setinit → pool.KeptIn (SfProcess.start file).file := fun hne => h.resolve_left hne
  unfold SfCommand.ofArg at hkept ⊢
  unfold writestatefile
  by_cases hinit : arg = "setinit"
  · obtain ⟨p', hcall, hkept'⟩ := globalInitState_returns (c := c) (p := .start file) hio fun _ => rfl
    simp only [if_pos hinit]
    refine ⟨p'.file, ?_, hkept'⟩
    simp only [hcall]
    exact .of_returned _
  simp only [if_neg hinit] at hkept ⊢
  by_cases hactive : arg = "setactive"
  · simp only [if_pos hactive] at hkept ⊢
    obtain ⟨p', hcall, hkept'⟩ := globalReadAndSetState_yields hio (hkept nofun) sfStateActive
    refine ⟨p'.file, SfCall.Yields.bind (a := (.sf .success, p')) ?_ (.of_returned _), hkept'⟩
    exact hcall.bind (.of_returned _)
  simp only [if_neg hactive] at hkept ⊢
  by_cases hinvalid : arg = "setinvalid"
  · simp only [if_pos hinvalid] at hkept ⊢
    obtain ⟨p', hcall, hkept'⟩ := globalReadAndSetState_yields hio (hkept nofun) sfStateInvalid
    refine ⟨p'.file, SfCall.Yields.bind (a := (.sf .success, p')) ?_ (.of_returned _), hkept'⟩
    exact hcall.bind (.of_returned _)
  simp only [if_neg hinvalid] at hkept ⊢
  by_cases hex : arg = "setex"
  · simp only [if_pos hex] at hkept ⊢
    obtain ⟨p', hcall, hkept'⟩ := hostSpecificEx_yields hio hc (hkept nofun) true
    exact ⟨p'.file, hcall.bind (.of_returned _), hkept'⟩
  simp only [if_neg hex] at hkept ⊢
  by_cases hclear : arg = "clearex"
  · simp only [if_pos hclear] at hkept ⊢
    obtain ⟨p', hcall, hkept'⟩ := hostSpecificEx_yields hio hc (hkept nofun) false
    exact ⟨p'.file, hcall.bind (.of_returned _), hkept'⟩
  simp only [if_neg hclear] at hkept ⊢
  exact ⟨file, .of_returned _, hkept nofun⟩

end

/-! ## One run after the other -/

/-- A run of the command: the configuration it has read, how its accesses go, and its first argument. -/
structure SfRun where
  config : HaConfigData
  io : Nat → SfDescriptor
  arg : String

/-- The configuration was accepted, and no access fails or falls short. -/
structure SfRun.Whole (r : SfRun) : Prop where
  config : ∃ getaddrinfo file, interpretConfigFile getaddrinfo file = .ok r.config
  io : ∀ n, (r.io n).Whole

def writestatefiles (fuel : Nat) (file : List Byte) : List SfRun → SfCall (List SfCommandStatus × List Byte)
  | [] => .returned ([], file)
  | r :: rs => (writestatefile r.config r.io fuel file r.arg).bind fun (status, file) =>
    (writestatefiles fuel file rs).bind fun (statuses, file) => .returned (status :: statuses, file)

/-- The commands of the runs on the pool. -/
def SfPool.afterRuns (pool : SfPool) : List SfRun → List SfCommandStatus × SfPool
  | [] => ([], pool)
  | r :: rs =>
    let (status, pool) := pool.after r.config (SfCommand.ofArg r.arg)
    let (statuses, pool) := pool.afterRuns rs
    (status :: statuses, pool)

theorem writestatefiles_yields {runs : List SfRun} (hruns : ∀ r ∈ runs, r.Whole) {pool : SfPool} {file : List Byte}
    (h : (∃ r rs, runs = r :: rs ∧ r.arg = "setinit") ∨ pool.KeptIn file) :
    ∃ file', SfCall.Yields (fun fuel => writestatefiles fuel file runs) ((pool.afterRuns runs).1, file') ∧
      (pool.afterRuns runs).2.KeptIn file' := by
  induction runs generalizing pool file with
  | nil =>
    refine ⟨file, .of_returned _, h.resolve_left ?_⟩
    rintro ⟨r, rs, hnil, -⟩
    cases hnil
  | cons r rs ih =>
    obtain ⟨⟨getaddrinfo, text, hc⟩, hio⟩ := hruns r List.mem_cons_self
    have hfirst : SfCommand.ofArg r.arg = some .setinit ∨ pool.KeptIn file := by
      refine h.imp_left ?_
      rintro ⟨r', rs', hcons, hinit⟩
      cases hcons
      rw [hinit]
      rfl
    obtain ⟨file₁, hrun, hkept⟩ := writestatefile_yields hio (interpretConfigFile_wellFormed hc) hfirst
    obtain ⟨file₂, hrest, hkept'⟩ := ih (fun r' hr' => hruns r' (List.mem_cons_of_mem _ hr')) (.inr hkept)
    exact ⟨file₂, hrun.bind (hrest.bind (.of_returned _)), hkept'⟩

/-- Whatever is in the file: after a `setinit`, a sequence of commands whose accesses do not fail returns what the commands
return on the pool, and every section can then be read as the pool has it. -/
theorem commands_refine_pool (file : List Byte) (r : SfRun) (rs : List SfRun) (hinit : r.arg = "setinit")
    (hruns : ∀ r' ∈ r :: rs, r'.Whole) :
    let pool := (SfPool.initial r.config).afterRuns rs
    ∃ file', SfCall.Yields (fun fuel => writestatefiles fuel file (r :: rs)) (.sf .success :: pool.1, file') ∧
      ∀ d : SfDescriptor, d.Reads → ∀ p,
        (∀ expectedUuid : Option MtcUuid, (∀ uuid ∈ expectedUuid, uuidComp pool.2.global.genUuid.chars uuid = .eq) →
          ∃ q, SfCall.Yields (sfReadglobal d file' p expectedUuid) (.success, q) ∧
            ((globalFormat expectedUuid).data q).body = pool.2.global) ∧
        ∀ i < maxHostNum, ∃ q, SfCall.Yields (sfReadhostspecific d file' i p) (.success, q) ∧
          ((hostFormat i).data q).body = pool.2.host i := by
  intro pool
  have hyields : ∃ file', SfCall.Yields (fun fuel => writestatefiles fuel file (r :: rs))
      (((SfPool.initial r.config).afterRuns (r :: rs)).1, file') ∧
        ((SfPool.initial r.config).afterRuns (r :: rs)).2.KeptIn file' :=
    writestatefiles_yields hruns (.inl ⟨r, rs, rfl, hinit⟩)
  obtain ⟨file', hrun, hkept⟩ := hyields
  have hafter : (SfPool.initial r.config).afterRuns (r :: rs) = (.sf .success :: pool.1, pool.2) := by
    rw [SfPool.afterRuns, hinit]
    rfl
  rw [hafter] at hrun hkept
  exact ⟨file', hrun, fun d hd p => hkept.read hd p⟩

/-- No call on it fails, and everything is written at once. -/
def wholeFileIo : SfDescriptor := ⟨true, fun _ => some lengthGlobal, some stateFileSize⟩

theorem wholeFileIo_whole : wholeFileIo.Whole where
  reads := ⟨rfl, fun _ => Option.some_ne_none _⟩
  writes := ⟨rfl, stateFileSize, le_rfl, rfl⟩

/-- A host can be excluded after `setactive`, and not before. -/
theorem commands_refine_pool_of_one : ∃ c : HaConfigData, ∃ file', SfCall.Yields
    (fun fuel => writestatefiles fuel [] (["setinit", "setex", "setactive", "setex"].map fun arg => ⟨c, fun _ => wholeFileIo, arg⟩))
    ([.sf .success, .invalidPoolState, .sf .success, .sf .success], file') := by
  have hl := poolDoc_lists [firstHost] [] firstHost.1
  have haddr : ∀ host ∈ [firstHost], ∃ addr, poolAddress host.2 = some addr ∧ addr ≠ .other :=
    fun host hhost => poolAddress_some host (.inl (List.mem_singleton.1 hhost))
  obtain ⟨c, hc⟩ := hl.accepted (poolDoc_complete _ haddr nofun) (by decide) (by decide) (by decide)
  obtain ⟨file', hrun, -⟩ := commands_refine_pool [] ⟨c, fun _ => wholeFileIo, "setinit"⟩
    (["setex", "setactive", "setex"].map fun arg => ⟨c, fun _ => wholeFileIo, arg⟩) rfl (by
      intro r hr
      obtain ⟨arg, -, rfl⟩ : ∃ arg ∈ ["setinit", "setex", "setactive", "setex"], ⟨c, fun _ => wholeFileIo, arg⟩ = r :=
        List.mem_map.1 hr
      exact ⟨⟨_, _, hc⟩, fun _ => wholeFileIo_whole⟩)
  exact ⟨c, file', hrun⟩

/-! ## Runs that fail -/

/-- A `write` fails or writes everything. -/
def SfDescriptor.WholeOrFails (d : SfDescriptor) : Prop := ∀ n, d.taken = some n → stateFileSize ≤ n

section

variable {io : Nat → SfDescriptor} {p p' : SfProcess} {status : SfStatus}

theorem SfFormat.writeSection_cases {β : Type} (F : SfFormat β) {d : SfDescriptor} (hd : d.WholeOrFails) (file : List Byte)
    (p : SfSection) : F.writeSection d file p = .returned (.ioError, file, F.written p) ∨ d.WritesAll F.rounded := by
  cases htaken : d.taken with
  | none =>
    left
    rw [F.writeSection_eq, htaken]
    rfl
  | some n =>
    right
    have hle : F.rounded ≤ n := le_trans F.fits (le_trans (by decide) (hd n htaken))
    unfold SfDescriptor.taken at htaken
    split at htaken
    · rename_i hseeks
      exact ⟨hseeks, n, hle, htaken⟩
    · cases htaken

/-- A read that is a success, whatever the calls are, returns what is stored. -/
theorem SfFormat.readSection_success {β : Type} (F : SfFormat β) {d : SfDescriptor} {file : List Byte} {p q : SfSection}
    {fuel : Nat} (h : F.readSection d file p fuel = .returned (.success, q)) :
    F.validate (F.stored file) = .success ∧ F.data q = F.stored file := by
  obtain ⟨⟨status, buffer⟩, hread, hresult⟩ := SfCall.bind_returned h
  dsimp only at hresult
  obtain ⟨hstatus, rfl⟩ := Prod.mk.inj (SfCall.returned.inj hresult)
  by_cases hs : status ≠ .success
  · rw [if_pos hs] at hstatus
    cases hstatus
  · rw [if_neg hs] at hstatus
    have hnot : status = .success := not_not.1 hs
    subst hnot
    by_cases hseek : d.seeks = false ∨ (F.offset : Int) < 0
    · rw [SfDescriptor.sfRead, if_neg (SfDescriptor.not_misaligned F.aligned), if_pos hseek] at hread
      cases hread
    · rw [SfDescriptor.sfRead_eq (SfDescriptor.not_misaligned F.aligned) hseek, SfCall.ofLoop_returned] at hread
      rcases SfDescriptor.returns_success ⟨fuel, hread⟩ with ⟨-, rfl, hfull⟩ | ⟨hio, -⟩
      · have hlen : F.offset + F.rounded ≤ file.length :=
          (length_slice_eq_iff.1 hfull).resolve_left F.rounded_ne_zero
        have hdata := F.data_overlay p hlen
        exact ⟨by rw [← hdata]; exact hstatus, hdata⟩
      · cases hio

theorem SfProcess.readGlobal_file {fuel : Nat} {expectedUuid : Option MtcUuid}
    (h : p.readGlobal io fuel expectedUuid = .returned (status, p')) : p'.file = p.file := by
  obtain ⟨r, -, hr⟩ := SfCall.bind_returned h
  cases hr
  rfl

theorem SfProcess.readHost_file {fuel hostIndex : Nat} (h : p.readHost io fuel hostIndex = .returned (status, p')) :
    p'.file = p.file := by
  obtain ⟨r, -, hr⟩ := SfCall.bind_returned h
  cases hr
  rfl

/-- A write that is no success leaves the file. -/
theorem SfFormat.writeSection_file {β : Type} (F : SfFormat β) {d : SfDescriptor} {file file' : List Byte} {p q : SfSection}
    (h : F.writeSection d file p = .returned (status, file', q)) (hs : status ≠ .success) : file' = file := by
  rw [F.writeSection_eq] at h
  cases htaken : d.taken with
  | none =>
    rw [htaken] at h
    cases h
    rfl
  | some n =>
    rw [htaken] at h
    cases h
    exact absurd rfl hs

theorem SfProcess.writeGlobal_file (h : p.writeGlobal io = .returned (status, p')) (hs : status ≠ .success) :
    p'.file = p.file := by
  obtain ⟨r, hwrite, hr⟩ := SfCall.bind_returned h
  cases hr
  exact (globalFormat none).writeSection_file hwrite hs

theorem SfProcess.writeHost_file {hostIndex : Nat} (h : p.writeHost io hostIndex = .returned (status, p'))
    (hs : status ≠ .success) : p'.file = p.file := by
  obtain ⟨r, hwrite, hr⟩ := SfCall.bind_returned h
  cases hr
  exact (hostFormat hostIndex).writeSection_file hwrite hs

theorem globalReadAndSetState_file {fuel : Nat} {newstate : PoolState}
    (h : globalReadAndSetState io fuel p newstate = .returned (status, p')) (hs : status ≠ .success) : p'.file = p.file := by
  obtain ⟨⟨status₁, p₁⟩, hread, h⟩ := SfCall.bind_returned h
  dsimp only at h
  rw [← SfProcess.readGlobal_file hread]
  split at h
  · cases h
    rfl
  · have hfile := SfProcess.writeGlobal_file h hs
    exact hfile

theorem hostSpecificEx_file {c : HaConfigData} {fuel : Nat} {excluded : Bool} {status : SfCommandStatus}
    (h : hostSpecificEx c io fuel p excluded = .returned (status, p')) (hs : status ≠ .sf .success) : p'.file = p.file := by
  obtain ⟨⟨status₁, p₁⟩, hread, h⟩ := SfCall.bind_returned h
  dsimp only at h
  rw [← SfProcess.readGlobal_file hread]
  split at h
  · cases h
    rfl
  obtain ⟨⟨status₂, p₂⟩, hreadHost, h⟩ := SfCall.bind_returned h
  dsimp only at h
  rw [← SfProcess.readHost_file hreadHost]
  split at h
  · cases h
    rfl
  split at h
  · cases h
    rfl
  obtain ⟨⟨status₃, p₃⟩, hwrite, h⟩ := SfCall.bind_returned h
  cases h
  have hfile := SfProcess.writeHost_file hwrite fun he => hs (congrArg SfCommandStatus.sf he)
  exact hfile

/-- The global section is in no other state than `SF_STATE_INIT`, if it can be read at all. -/
def InitOrUnreadable (file : List Byte) : Prop :=
  ∀ (d : SfDescriptor) (expectedUuid : Option MtcUuid) (fuel : Nat) (p q : SfSection),
    sfReadglobal d file p expectedUuid fuel = .returned (.success, q) →
      ((globalFormat expectedUuid).data q).body.poolState = sfStateInit

theorem SfFormat.Keeps.initOrUnreadable {c : HaConfigData} {file : List Byte}
    (h : (globalFormat none).Keeps file (SfPool.initial c).global) : InitOrUnreadable file := by
  intro d expectedUuid fuel p q hread
  obtain ⟨-, hdata⟩ := (globalFormat expectedUuid).readSection_success hread
  have hstored : (globalFormat expectedUuid).stored file = (globalFormat none).sealed (SfPool.initial c).global := h.stored
  rw [hdata, hstored]
  rfl

theorem length_bytes_start (file : List Byte) : (SfProcess.start file).bytes.length = stateFileSize := by
  rw [SfProcess.bytes, List.length_append, List.length_flatMap, SfSection.length_bytes]
  simp only [SfSection.length_bytes]
  rfl

/-- A file that has been cleared. -/
theorem initOrUnreadable_cleared (file : List Byte) : InitOrUnreadable (write 0 file 0 (SfProcess.start file).bytes) := by
  intro d expectedUuid fuel p q hread
  obtain ⟨hvalid, -⟩ := (globalFormat expectedUuid).readSection_success hread
  have hle : (globalFormat none).size ≤ (SfProcess.start file).global.bytes.length := by
    rw [SfSection.length_bytes]
    decide
  have hslice : slice (write 0 file 0 (SfProcess.start file).bytes) 0 (globalFormat expectedUuid).size =
      blankSection.bytes.take (globalFormat none).size := by
    have htake := congrArg (·.take (globalFormat none).size) (@slice_write _ (0 : Byte) file 0 (SfProcess.start file).bytes)
    rw [length_bytes_start, slice_take (by decide)] at htake
    refine htake.trans ?_
    rw [SfProcess.bytes, List.take_append_of_le_length hle]
    rfl
  -- the signature is zero
  have hsig : ((globalFormat expectedUuid).stored (write 0 file 0 (SfProcess.start file).bytes)).sig = 0 := by
    rw [SfFormat.stored]
    refine (congrArg (fun bytes => ((dataLayout globalBodyLayout).decode bytes).sig) hslice).trans ?_
    decide +kernel
  have hne : ((globalFormat expectedUuid).stored (write 0 file 0 (SfProcess.start file).bytes)).sig ≠
      (globalFormat expectedUuid).sig := by
    rw [hsig]
    change (0 : MtcU32) ≠ sigSfGlobal
    decide
  rw [SfFormat.validate, if_pos (.inl hne)] at hvalid
  cases hvalid

theorem SfProcess.writeGlobal_keeps (hio : ∀ n, (io n).WholeOrFails) (h : p.writeGlobal io = .returned (status, p')) :
    (status = .ioError ∧ p'.file = p.file) ∨ (globalFormat none).Keeps p'.file ((globalFormat none).data p.global).body := by
  obtain ⟨r, hsection, hr⟩ := SfCall.bind_returned h
  cases hr
  rcases (globalFormat none).writeSection_cases (hio p.accesses) p.file p.global with hfail | hall
  · rw [sfWriteglobal, hfail] at hsection
    cases hsection
    exact .inl ⟨rfl, rfl⟩
  · obtain ⟨file', hsuccess, hkeeps, -⟩ := (globalFormat none).write_keeps hall p.file p.global
    rw [sfWriteglobal, hsuccess] at hsection
    cases hsection
    exact .inr hkeeps

/-- The records of the hosts may be written or not: the global section stays. -/
theorem writeHosts_keeps (hio : ∀ n, (io n).WholeOrFails) {b : SfGlobalBody} (hosts : List Nat)
    (h : p.writeHosts io hosts = .returned (status, p')) (hb : (globalFormat none).Keeps p.file b) :
    (globalFormat none).Keeps p'.file b := by
  induction hosts generalizing p with
  | nil =>
    cases h
    exact hb
  | cons host hosts ih =>
    rw [SfProcess.writeHosts] at h
    obtain ⟨⟨status₁, p₁⟩, hwrite, h⟩ := SfCall.bind_returned h
    dsimp only at h
    have hb₁ : (globalFormat none).Keeps p₁.file b := by
      obtain ⟨r, hsection, hr⟩ := SfCall.bind_returned hwrite
      cases hr
      rcases (hostFormat host).writeSection_cases (hio p.accesses) p.file (p.host host) with hfail | hall
      · rw [sfWritehostspecific, hfail] at hsection
        cases hsection
        exact hb
      · obtain ⟨file', hsuccess, -, hother⟩ := (hostFormat host).write_keeps hall p.file (p.host host)
        rw [sfWritehostspecific, hsuccess] at hsection
        cases hsection
        refine hother (globalFormat none) b (.inr ?_) hb
        simp only [hostFormat, globalFormat]
        omega
    split at h
    · cases h
      exact hb₁
    · exact ih h hb₁

/-- `setinit` leaves the file or sets the pool back, wherever it stops. -/
theorem globalInitState_stops {c : HaConfigData} (hio : ∀ n, (io n).WholeOrFails) {file : List Byte}
    (h : globalInitState c io (.start file) = .returned (status, p')) : p'.file = file ∨ InitOrUnreadable p'.file := by
  obtain ⟨⟨status₁, p₁⟩, hclear, h⟩ := SfCall.bind_returned h
  dsimp only at h
  obtain ⟨⟨status', file'⟩, hwrite, hr⟩ := SfCall.bind_returned hclear
  cases hr
  have hwrite' : (io 0).sfWrite file (SfProcess.start file).bytes stateFileSize ((0 : Nat) : Int) = .returned (status₁, file') :=
    hwrite
  rw [SfDescriptor.sfWrite_eq rfl] at hwrite'
  cases htaken : (io 0).taken with
  | none =>
    rw [htaken] at hwrite'
    cases hwrite'
    cases h
    exact .inl rfl
  | some n =>
    right
    have hmin : min n (roundUp stateFileSize ioUnit) = (SfProcess.start file).bytes.length := by
      rw [length_bytes_start]
      exact Nat.min_eq_right (hio 0 n htaken)
    rw [htaken, Option.elim_some, hmin, List.take_length] at hwrite'
    cases hwrite'
    rw [ite_success] at h
    obtain ⟨⟨status₂, p₂⟩, hglobal, h⟩ := SfCall.bind_returned h
    dsimp only at h
    have hkeeps := SfProcess.writeGlobal_keeps hio hglobal
    rw [SfProcess.data_setGlobal] at hkeeps
    split at h
    · cases h
      rcases hkeeps with ⟨-, hfile⟩ | hkeeps
      · rw [hfile]
        exact initOrUnreadable_cleared file
      · exact (hkeeps.congr (stamp_globalInit c _)).initOrUnreadable
    · rename_i hs
      rcases hkeeps with ⟨hio₂, -⟩ | hkeeps
      · rw [hio₂] at hs
        exact absurd nofun hs
      · exact (writeHosts_keeps hio _ h (hkeeps.congr (stamp_globalInit c _))).initOrUnreadable

end

/-- A run that ends with an error leaves the file, whatever its accesses do, unless it is a `setinit`: with `write`s that
write everything or fail, that one leaves the file or a global section in the state `SF_STATE_INIT` or unreadable. -/
theorem failed_command_leaves_state (c : HaConfigData) (io : Nat → SfDescriptor) (fuel : Nat) (file : List Byte) (arg : String)
    {status : SfCommandStatus} {file' : List Byte} (h : writestatefile c io fuel file arg = .returned (status, file'))
    (hs : status ≠ .sf .success) :
    (arg ≠ "setinit" → file' = file) ∧ ((∀ n, (io n).WholeOrFails) → file' = file ∨ InitOrUnreadable file') := by
  obtain ⟨⟨status', p'⟩, hcall, hr⟩ := SfCall.bind_returned h
  cases hr
  have hother : arg ≠ "setinit" → p'.file = file := by
    intro hinit
    rw [if_neg hinit] at hcall
    have hstart : p'.file = (SfProcess.start file).file := by
      split at hcall
      · obtain ⟨r, hset, hr⟩ := SfCall.bind_returned hcall
        cases hr
        exact globalReadAndSetState_file hset fun he => hs (congrArg SfCommandStatus.sf he)
      split at hcall
      · obtain ⟨r, hset, hr⟩ := SfCall.bind_returned hcall
        cases hr
        exact globalReadAndSetState_file hset fun he => hs (congrArg SfCommandStatus.sf he)
      split at hcall
      · exact hostSpecificEx_file hcall hs
      split at hcall
      · exact hostSpecificEx_file hcall hs
      · cases hcall
        rfl
    exact hstart
  refine ⟨hother, fun hio => ?_⟩
  by_cases hinit : arg = "setinit"
  · rw [if_pos hinit] at hcall
    obtain ⟨r, hset, hr⟩ := SfCall.bind_returned hcall
    cases hr
    exact globalInitState_stops hio hset
  · exact .inl (hother hinit)

/-- Only the first access, the one that clears the file, gets to the disk. -/
def clearingIo (access : Nat) : SfDescriptor := { wholeFileIo with seeks := decide (access = 0) }

theorem clearingIo_wholeOrFails (access : Nat) : (clearingIo access).WholeOrFails := by
  intro n hn
  unfold SfDescriptor.taken at hn
  split at hn
  · cases hn
    exact le_rfl
  · cases hn

theorem failed_command_leaves_state_cleared : ∃ file', writestatefile ⟨[], .initial, .initial⟩ clearingIo 0 [] "setinit" =
    .returned (.sf .ioError, file') ∧ InitOrUnreadable file' := by
  have hrun : ∃ file', writestatefile ⟨[], .initial, .initial⟩ clearingIo 0 [] "setinit" =
      .returned (.sf .ioError, file') ∧ file'.length = stateFileSize := by
    have hbytes : (SfProcess.start []).bytes.take (min stateFileSize (roundUp stateFileSize ioUnit)) ≠ [] := by
      rw [← List.length_pos_iff, List.length_take, length_bytes_start]
      decide
    refine ⟨_, rfl, ?_⟩
    dsimp only [SfProcess.setGlobal]
    rw [length_write, if_neg hbytes, List.length_take, length_bytes_start]
    decide
  obtain ⟨file', hrun, hlength⟩ := hrun
  rcases (failed_command_leaves_state _ _ _ _ _ hrun nofun).2 clearingIo_wholeOrFails with hsame | hinit
  · rw [hsame] at hlength
    cases hlength
  · exact ⟨file', hrun, hinit⟩

end Xha
