/-
`test_Start_Criteria` (sm.c): when a booting host forms a new liveset, joins an existing one, or gives
up. The function reads the objects again after every signal, so a run is given by what it reads.
-/
import Xha.Sm.Partition

namespace Xha

open Loop

/-! ## The parts of the test -/

/-- The errors `test_Start_Criteria` returns. -/
inductive StartError
  | noStateFile | invalidPoolState | bootTimeout | joinFailed | bootBlockedByExcluded | bootFailed
  deriving DecidableEq, Repr

/-- How the test ends: a liveset passed to `form_new_liveset`, an existing one joined, or an error. -/
inductive StartResult
  | formed (liveset : HostMap)
  | joined (liveset : HostMap)
  | failed (error : StartError)
  deriving DecidableEq

/-- `START_FLAGS_*`. -/
structure StartFlags where
  init : Bool
  excluded : Bool
  emptyLiveset : Bool
  deriving DecidableEq

/-- The hosts of the State-File domain that are not starting: the existing liveset. -/
def sfdomainNonstarting (n : Nat) (sf : ComDataSf) : HostMap := (sf.sfdomain.diff sf.starting).maskUnconfig n

/-- `start_flags`; a pool that survives by Survival Rule-2 counts as a liveset once every host that is
not excluded is heard. -/
def startFlags (c : HaConfig) (poolState : PoolState) (excluded : Bool) (sm : ComDataSm) (hb : ComDataHb)
    (sf : ComDataSf) : StartFlags where
  init := poolState = sfStateInit
  excluded := excluded
  emptyLiveset := isEmptyLiveset c.hostnum (sfdomainNonstarting c.hostnum sf) &&
    !(sm.sr2 && isAllHostsUp c.hostnum (hb.hbdomain ||| sf.excluded))

/-- `am_I_in_new_liveset`: the liveset of the first host of `*pliveset`, if the local host is in it. -/
def amIInNewLiveset (c : HaConfig) (pliveset : HostMap) (psf : ComDataSf) : Option HostMap :=
  match (List.range c.hostnum).find? fun index => pliveset.isOn index with
  | none => none
  | some index =>
    let newliveset := (psf.raw index).currentLiveset
    if newliveset.isOn c.myIndex then some newliveset else none

/-- One evaluation of `wait_until_all_hosts_booted`. -/
def allHostsBooted (c : HaConfig) (phb : ComDataHb) : Bool :=
  (List.range c.hostnum).all fun index =>
    !(index != c.myIndex && phb.hbdomain.isOn index && !(phb.raw index).proposedLiveset.isOn c.myIndex)

/-- `wait_until_all_hosts_booted` over the heartbeat objects it evaluates until its timeout. -/
def waitUntilAllHostsBooted (c : HaConfig) (first : ComDataHb) (rest : List ComDataHb) : Bool :=
  (first :: rest).any (allHostsBooted c)

/-! ## The test -/

/-- What one turn of the loop reads: the copies of the objects, what `wait_until_all_hosts_booted`
evaluates, and the State-File object when `am_I_in_new_liveset` locks it. -/
structure StartRead where
  host : Host
  bootFirst : ComDataHb
  bootRest : List ComDataHb
  sfNow : ComDataSf

/-- One turn of the loop; `none` goes on waiting. -/
def startTurn (c : HaConfig) (poolState : PoolState) (excluded : Bool) (r : StartRead) : Option StartResult :=
  let hb := r.host.hb
  let sf := r.host.sf
  let flags := startFlags c poolState excluded r.host.sm hb sf
  if !sf.sfAccess then some (.failed .noStateFile)
  else match flags.init, flags.emptyLiveset with
    | true, false => some (.failed .invalidPoolState)
    | _, true =>
      if isAllHostsUp c.hostnum hb.hbdomain && isAllHostsUp c.hostnum sf.sfdomain then
        if waitUntilAllHostsBooted c r.bootFirst r.bootRest then some (.formed hb.hbdomain) else none
      else none
    | false, false =>
      match amIInNewLiveset c (sfdomainNonstarting c.hostnum sf) r.sfNow with
      | some liveset => some (.formed liveset)
      | none =>
        if (sf.sfdomain.maskUnconfig c.hostnum).subsetEqual (hb.hbdomain.maskUnconfig c.hostnum) then
          some (.joined (((sf.sfdomain.maskUnconfig c.hostnum).diff sf.starting).maskUnconfig c.hostnum))
        else none

/-- After the timeout: `r` is the last turn, `now` what the objects hold since. The vote counts the
objects of `now`; the liveset is taken from the copies of the last turn. -/
def startTimeout (c : HaConfig) (poolState : PoolState) (excluded : Bool) (r : StartRead) (now : Host) :
    StartResult :=
  let flags := startFlags c poolState excluded r.host.sm r.host.hb r.host.sf
  match flags.init, flags.emptyLiveset with
  | true, false => .failed .bootFailed
  | true, true => .failed .bootTimeout
  | false, false =>
    match amIInNewLiveset c (sfdomainNonstarting c.hostnum r.host.sf) now.sf with
    | some liveset => .formed liveset
    | none => .failed .joinFailed
  | false, true =>
    if flags.excluded && !isAllHostsUp c.hostnum r.host.sf.excluded then .failed .bootBlockedByExcluded
    else if amIInLargestPartition c now.hb now.sf now.sf.weight then
      .formed (r.host.hb.hbdomain.diff r.host.hb.notjoining)
    else .failed .bootFailed

/-- The loop over the turns, ended by the timeout if no turn concludes. -/
def startLoop (c : HaConfig) (poolState : PoolState) (excluded : Bool) : StartRead → List StartRead → Host → StartResult
  | r, [], now => (startTurn c poolState excluded r).getD (startTimeout c poolState excluded r now)
  | r, r' :: rest, now =>
    match startTurn c poolState excluded r with
    | some result => result
    | none => startLoop c poolState excluded r' rest now

/-- `test_Start_Criteria`, given the pool state and the excluded flag it reads on entry. -/
def testStartCriteria (c : HaConfig) (poolState : PoolState) (excluded : Bool) (first : StartRead)
    (rest : List StartRead) (now : Host) : StartResult :=
  if poolState = sfStateInit ∨ poolState = sfStateActive then startLoop c poolState excluded first rest now
  else if poolState = sfStateNone then .failed .noStateFile
  else .failed .invalidPoolState

/-- `form_new_liveset`. -/
def formNewLiveset (liveset : HostMap) (h : Host) : Host :=
  let h := { h with sm := { h.sm with proposedLiveset := liveset, currentLiveset := liveset } }
  { h.smWriterUnlock with hb := { h.hb with ctl := { h.hb.ctl with join := false } } }

/-- When no turn concludes, the timeout decides on the copies of the last turn. -/
theorem startLoop_timeout (c : HaConfig) (poolState : PoolState) (excluded : Bool) (now : Host) :
    ∀ (rest : List StartRead) (first : StartRead),
      (∀ r ∈ first :: rest, startTurn c poolState excluded r = none) →
      ∃ r ∈ first :: rest, startLoop c poolState excluded first rest now = startTimeout c poolState excluded r now
  | [], first, h => ⟨first, List.mem_cons_self .., by simp [startLoop, h first]⟩
  | r' :: rest, first, h => by
    obtain ⟨r, hr, he⟩ := startLoop_timeout c poolState excluded now rest r' fun r hr =>
      h r (List.mem_cons_of_mem _ hr)
    refine ⟨r, List.mem_cons_of_mem _ hr, ?_⟩
    rw [startLoop, h first (List.mem_cons_self ..)]
    exact he

end Xha
