/-
`query_liveset` (sc_func.c): the answer to Xapi is filled from the configuration and from one common object after the
other, with a warning for each timeout that comes near. The time since a host was last seen in the State-File is kept
without a sign, so that -1 for a host that has not been seen counts as the longest time there is: the warning of the
State-File is right when all times have been told in order (`sf_approaching_timeout_iff`).
-/
import Mathlib.Algebra.Group.Nat.Defs
import Xha.Config.File

namespace Xha

open Loop

/-! ## Objects -/

/-- `MTC_S32`. -/
abbrev MtcS32 := BitVec 32

/-- `latency`, `latency_max` and `latency_min` of an object; -1 is none. -/
structure Latency where
  latency : MtcS32
  latencyMax : MtcS32
  latencyMin : MtcS32

/-- What `query_liveset` leaves of them. -/
def Latency.reset (l : Latency) : Latency := { l with latencyMax := -1, latencyMin := -1 }

/-- `hb_approaching_timeout`, `sf_approaching_timeout` and `xapi_approaching_timeout`. -/
structure ApproachingTimeout where
  hb : Bool
  sf : Bool
  xapi : Bool

/-- `COM_DATA_XAPIMON`. -/
structure ComDataXapimon where
  latency : Latency
  timeXapiRestart : MtcClock
  timeHealthcheckStart : MtcClock
  errString : List Char

/-- `MTC_BOND_STATUS`. -/
inductive MtcBondStatus
  | nobond | err | degraded | noerr
  deriving DecidableEq

/-- The common objects, each as it is while its lock is held, and what `query_liveset` reads of them besides. -/
structure QueryObjects where
  sm : ComDataSm
  smApproachingTimeout : ApproachingTimeout
  hb : ComDataHb
  hbLatency : Latency
  hbErrString : Nat → List Char
  hbTimeSinceXapiRestart : Nat → MtcS32
  sf : ComDataSf
  sfLatency : Latency
  xapimon : ComDataXapimon
  mtcBondStatus : MtcBondStatus

/-! ## The answer -/

/-- `LIVESET_STATUS_STARTING` and `LIVESET_STATUS_ONLINE`. -/
inductive LivesetStatus
  | starting | online
  deriving DecidableEq

/-- `QUERY_LIVESET_HOST_INFO`. -/
structure QueryLivesetHostInfo where
  hostId : MtcUuid
  liveness : Bool
  master : Bool
  sfAccess : Bool
  sfCorrupted : Bool
  excluded : Bool
  timeSinceLastUpdateOnSf : MtcU32
  timeSinceLastHb : MtcS32
  timeSinceXapiRestart : MtcU32
  hbListOnHb : Nat → Bool
  sfListOnHb : Nat → Bool
  hbListOnSf : Nat → Bool
  sfListOnSf : Nat → Bool
  xapiErrString : List Char

/-- `SCRIPT_DATA_RESPONSE_QUERY_LIVESET`. -/
structure QueryLiveset where
  status : LivesetStatus
  hostnum : Nat
  localhostIndex : MtcU32
  sfLatency : Latency
  hbLatency : Latency
  xapiLatency : Latency
  t1 : MtcU32
  t2 : MtcU32
  t3 : MtcU32
  wh : MtcU32
  ws : MtcU32
  sfLost : Bool
  approachingTimeout : ApproachingTimeout
  bondingError : Bool
  host : Nat → QueryLivesetHostInfo

def QueryLivesetHostInfo.cleared : QueryLivesetHostInfo :=
  ⟨mtcUuidCleared, false, false, false, false, false, 0, 0, 0, fun _ => false, fun _ => false, fun _ => false, fun _ => false, []⟩

def QueryLiveset.cleared : QueryLiveset :=
  ⟨.starting, 0, 0, ⟨0, 0, 0⟩, ⟨0, 0, 0⟩, ⟨0, 0, 0⟩, 0, 0, 0, 0, 0, false, ⟨false, false, false⟩, false,
    fun _ => .cleared⟩

/-- Writes to `host[index]`. -/
def QueryLiveset.setHost (l : QueryLiveset) (index : Nat) (f : QueryLivesetHostInfo → QueryLivesetHostInfo) : QueryLiveset :=
  { l with host := Function.update l.host index (f (l.host index)) }

/-- `for (hi = 0; hi < _num_host; hi++) list[hi] = …`. -/
def fillList (numHost : Nat) (bit : Nat → Bool) (list : Nat → Bool) : Nat → Bool :=
  forRange numHost list fun list hi => Function.update list hi (bit hi)

section

variable (c : HaConfigData) (now : MtcClock)

/-- `_num_host` and `_my_index`. -/
def numHost : Nat := c.common.hostnum
def myIndex : Nat := c.localConfig.localhostIndex.toNat

/-! ## Filling it -/

def fillConf (l : QueryLiveset) : QueryLiveset :=
  let l := { l with
    hostnum := numHost c
    localhostIndex := c.localConfig.localhostIndex
    t1 := c.common.parameter .heartbeatTimeout * 1000
    t2 := c.common.parameter .statefileTimeout * 1000
    t3 := c.common.parameter .xapiHealthcheckTimeout * 1000
    wh := c.common.parameter .heartbeatWatchdogTimeout * 1000
    ws := c.common.parameter .statefileWatchdogTimeout * 1000 }
  forRange (numHost c) l fun l hostIndex => l.setHost hostIndex fun h =>
    { h with hostId := (c.common.hostInfo hostIndex).hostId }

def fillSm (sm : ComDataSm) (l : QueryLiveset) : QueryLiveset :=
  let l := { l with status := if sm.phase = SmPhase.starting then .starting else .online }
  let l := forRange (numHost c) l fun l hostIndex => l.setHost hostIndex fun h =>
    { h with liveness := sm.currentLiveset.isOn hostIndex, sfCorrupted := sm.sfCorrupted.isOn hostIndex }
  { l with sfLost := sm.sr2 }

/-- A turn of the loop over the hosts in the heartbeat part. -/
def fillHbHost (o : QueryObjects) (l : QueryLiveset) (hostIndex : Nat) : QueryLiveset :=
  let l := l.setHost hostIndex fun h => { h with timeSinceLastHb := timeSince now (o.hb.timeLastHb hostIndex) }
  let l :=
    if (l.host hostIndex).liveness then
      let l := if hostIndex ≠ myIndex c then
          l.setHost hostIndex fun h => { h with
            hbListOnHb := fillList (numHost c) (o.hb.raw hostIndex).hbdomain.isOn h.hbListOnHb
            sfListOnHb := fillList (numHost c) (o.hb.raw hostIndex).sfdomain.isOn h.sfListOnHb }
        else l
      let time := (l.host hostIndex).timeSinceLastHb
      if 0 ≤ time.toInt ∧ l.t1 / 2 < time then
        { l with approachingTimeout := { l.approachingTimeout with hb := true } }
      else l
    else l
  l.setHost hostIndex fun h => { h with
    timeSinceXapiRestart :=
      if (o.hbTimeSinceXapiRestart hostIndex).toInt < 0 then -1
      else h.timeSinceLastHb + o.hbTimeSinceXapiRestart hostIndex
    xapiErrString := o.hbErrString hostIndex }

def fillHb (o : QueryObjects) (l : QueryLiveset) : QueryLiveset :=
  let l := { l with hbLatency := o.hbLatency }
  let l := if l.hbLatency.latencyMax ≠ -1 ∧ l.t1 / 2 < l.hbLatency.latencyMax then
      { l with approachingTimeout := { l.approachingTimeout with hb := true } }
    else l
  let l := forRange (numHost c) l (fillHbHost c now o)
  l.setHost (myIndex c) fun h => { h with
    hbListOnSf := fillList (numHost c) o.hb.hbdomain.isOn h.hbListOnSf
    hbListOnHb := fillList (numHost c) o.hb.hbdomain.isOn h.hbListOnHb }

/-- A turn of the loop over the hosts in the State-File part. -/
def fillSfHost (sf : ComDataSf) (l : QueryLiveset) (hostIndex : Nat) : QueryLiveset :=
  let sfLost := l.sfLost
  let l := l.setHost hostIndex fun h => { h with
    master := uuidComp sf.master h.hostId = .eq
    sfAccess :=
      if h.liveness then
        if sfLost then if hostIndex = myIndex c then sf.sfAccess else h.sfListOnHb hostIndex
        else true
      else false
    excluded := sf.excluded.isOn hostIndex
    timeSinceLastUpdateOnSf := timeSince now (sf.timeLastSf hostIndex) }
  if (l.host hostIndex).liveness then
    let l := if hostIndex ≠ myIndex c then
        l.setHost hostIndex fun h => { h with
          hbListOnSf := fillList (numHost c)
            (fun hi => sf.sfdomain.isOn hostIndex && (sf.raw hostIndex).hbdomain.isOn hi) h.hbListOnSf
          sfListOnSf := fillList (numHost c)
            (fun hi => sf.sfdomain.isOn hostIndex && (sf.raw hostIndex).sfdomain.isOn hi) h.sfListOnSf }
      else l
    -- both comparisons are of unsigned numbers
    let time := (l.host hostIndex).timeSinceLastUpdateOnSf
    if l.sfLost = false ∧ 0 ≤ time ∧ l.t2 / 2 < time then
      { l with approachingTimeout := { l.approachingTimeout with sf := true } }
    else l
  else l

def fillSf (o : QueryObjects) (l : QueryLiveset) : QueryLiveset :=
  let l := { l with sfLatency := o.sfLatency }
  let l := if l.sfLost = false ∧ 0 ≤ l.sfLatency.latencyMax.toInt ∧ l.t2 / 2 < l.sfLatency.latencyMax then
      { l with approachingTimeout := { l.approachingTimeout with sf := true } }
    else l
  let l := forRange (numHost c) l (fillSfHost c now o.sf)
  l.setHost (myIndex c) fun h => { h with
    sfListOnSf := fillList (numHost c) o.sf.sfdomain.isOn h.sfListOnSf
    sfListOnHb := fillList (numHost c) o.sf.sfdomain.isOn h.sfListOnHb
    sfCorrupted := o.sf.sfCorrupted }

def fillXapimon (xapimon : ComDataXapimon) (l : QueryLiveset) : QueryLiveset :=
  let l := { l with xapiLatency := xapimon.latency }
  let l := l.setHost (myIndex c) fun h => { h with xapiErrString := xapimon.errString }
  let l := if 0 ≤ l.xapiLatency.latencyMax.toInt ∧ l.t3 / 2 < l.xapiLatency.latencyMax then
      { l with approachingTimeout := { l.approachingTimeout with xapi := true } }
    else l
  let l := if 0 ≤ xapimon.timeHealthcheckStart ∧ ((l.t3 / 2).toNat : Int) ≤ now - xapimon.timeHealthcheckStart then
      { l with approachingTimeout := { l.approachingTimeout with xapi := true } }
    else l
  l.setHost (myIndex c) fun h => { h with timeSinceXapiRestart := timeSince now xapimon.timeXapiRestart }

def fillBm (mtcBondStatus : MtcBondStatus) (l : QueryLiveset) : QueryLiveset :=
  { l with bondingError := mtcBondStatus = .err ∨ mtcBondStatus = .degraded }

/-- The answer of `script_service_do_query_liveset`. -/
def queryLiveset (o : QueryObjects) : QueryLiveset :=
  fillBm o.mtcBondStatus (fillXapimon c now o.xapimon (fillSf c now o (fillHb c now o (fillSm c o.sm (fillConf c .cleared)))))

/-- `script_service_do_query_liveset`: the answer, and the objects behind it. -/
def scriptServiceDoQueryLiveset (o : QueryObjects) : QueryLiveset × QueryObjects :=
  let l := queryLiveset c now o
  let reset (latency : Latency) : Latency := if l.status = .online then latency.reset else latency
  (l, { o with
    smApproachingTimeout := l.approachingTimeout
    hbLatency := reset o.hbLatency
    sfLatency := reset o.sfLatency
    xapimon := { o.xapimon with latency := reset o.xapimon.latency } })

/-! ## What the warning for the State-File depends on -/

/-- The timeout, the liveset, SR-2 and the warning for the State-File are as before. -/
structure SameSf (l l' : QueryLiveset) : Prop where
  t2 : l'.t2 = l.t2
  sfLost : l'.sfLost = l.sfLost
  liveness : ∀ i, (l'.host i).liveness = (l.host i).liveness
  sf : l'.approachingTimeout.sf = l.approachingTimeout.sf

variable {l l' m : QueryLiveset}

theorem SameSf.refl (l : QueryLiveset) : SameSf l l := ⟨rfl, rfl, fun _ => rfl, rfl⟩

theorem SameSf.trans (h : SameSf l l') (h' : SameSf l' m) : SameSf l m :=
  ⟨h'.t2.trans h.t2, h'.sfLost.trans h.sfLost, fun i => (h'.liveness i).trans (h.liveness i), h'.sf.trans h.sf⟩

theorem SameSf.ite {p : Prop} [Decidable p] (h : SameSf l l') (h' : SameSf l m) : SameSf l (if p then l' else m) := by
  split
  · exact h
  · exact h'

theorem SameSf.loop {n : Nat} {f : QueryLiveset → Nat → QueryLiveset} (hf : ∀ l i, SameSf l (f l i)) :
    SameSf l (forRange n l f) :=
  forRange_inv (fun _ => SameSf l) (.refl l) fun i t _ h => h.trans (hf t i)

/-- Writes to other fields of a host. -/
theorem SameSf.setHost (l : QueryLiveset) (index : Nat) {f : QueryLivesetHostInfo → QueryLivesetHostInfo}
    (hf : ∀ h, (f h).liveness = h.liveness) : SameSf l (l.setHost index f) := by
  refine ⟨rfl, rfl, fun i => ?_, rfl⟩
  by_cases hi : i = index
  · subst hi
    simp [QueryLiveset.setHost, hf]
  · simp [QueryLiveset.setHost, hi]

theorem SameSf.hbWarning (l : QueryLiveset) :
    SameSf l { l with approachingTimeout := { l.approachingTimeout with hb := true } } := ⟨rfl, rfl, fun _ => rfl, rfl⟩

theorem SameSf.xapiWarning (l : QueryLiveset) :
    SameSf l { l with approachingTimeout := { l.approachingTimeout with xapi := true } } := ⟨rfl, rfl, fun _ => rfl, rfl⟩

theorem fillHbHost_same (o : QueryObjects) (l : QueryLiveset) (i : Nat) : SameSf l (fillHbHost c now o l i) := by
  unfold fillHbHost
  extract_lets l1 l2 time _ l3
  have h1 : SameSf l l1 := .setHost l i fun _ => rfl
  have h2 : SameSf l1 l2 := .ite (.setHost l1 i fun _ => rfl) (.refl l1)
  have h3 : SameSf l1 l3 := .ite (h2.trans (.ite (.hbWarning l2) (.refl l2))) (.refl l1)
  exact (h1.trans h3).trans (.setHost l3 i fun _ => rfl)

theorem fillHb_same (o : QueryObjects) (l : QueryLiveset) : SameSf l (fillHb c now o l) := by
  unfold fillHb
  extract_lets l1 _ l2 l3
  have h1 : SameSf l l1 := ⟨rfl, rfl, fun _ => rfl, rfl⟩
  have h2 : SameSf l1 l2 := .ite (.hbWarning l1) (.refl l1)
  have h3 : SameSf l2 l3 := .loop (fillHbHost_same c now o)
  exact ((h1.trans h2).trans h3).trans (.setHost l3 _ fun _ => rfl)

theorem fillXapimon_same (xapimon : ComDataXapimon) (l : QueryLiveset) : SameSf l (fillXapimon c now xapimon l) := by
  unfold fillXapimon
  extract_lets l1 l2 _ l3 _ l4
  have h1 : SameSf l l1 := ⟨rfl, rfl, fun _ => rfl, rfl⟩
  have h2 : SameSf l1 l2 := .setHost l1 _ fun _ => rfl
  have h3 : SameSf l2 l3 := .ite (.xapiWarning l2) (.refl l2)
  have h4 : SameSf l3 l4 := .ite (.xapiWarning l3) (.refl l3)
  exact (((h1.trans h2).trans h3).trans h4).trans (.setHost l4 _ fun _ => rfl)

/-! ## The State-File part -/

/-- A host in the liveset whose time since the last update, as it is kept, is above half the timeout. -/
def ToldLate (sf : ComDataSf) (l : QueryLiveset) (i : Nat) : Prop :=
  l.sfLost = false ∧ (l.host i).liveness = true ∧ l.t2 / 2 < timeSince now (sf.timeLastSf i)

/-- A turn of the loop warns for such a host. -/
theorem fillSfHost_spec (sf : ComDataSf) (l : QueryLiveset) (i : Nat) :
    (fillSfHost c now sf l i).t2 = l.t2 ∧ (fillSfHost c now sf l i).sfLost = l.sfLost ∧
      (∀ j, ((fillSfHost c now sf l i).host j).liveness = (l.host j).liveness) ∧
      ((fillSfHost c now sf l i).approachingTimeout.sf = true ↔ l.approachingTimeout.sf = true ∨ ToldLate now sf l i) := by
  unfold fillSfHost
  extract_lets sfLost l1 l2 time
  have h1 : SameSf l l1 := .setHost l i fun _ => rfl
  have h2 : SameSf l1 l2 := .ite (.setHost l1 i fun _ => rfl) (.refl l1)
  have h12 := h1.trans h2
  have htime1 : (l1.host i).timeSinceLastUpdateOnSf = timeSince now (sf.timeLastSf i) := by
    simp [l1, QueryLiveset.setHost]
  have htime : time = timeSince now (sf.timeLastSf i) := by
    rw [← htime1]
    simp only [time, l2]
    split
    · simp [QueryLiveset.setHost]
    · rfl
  unfold ToldLate
  by_cases hlive : (l1.host i).liveness = true
  · rw [if_pos hlive]
    rw [h1.liveness] at hlive
    split
    · rename_i hlate
      refine ⟨h12.t2, h12.sfLost, h12.liveness, iff_of_true rfl (.inr ⟨?_, hlive, ?_⟩)⟩
      · exact h12.sfLost ▸ hlate.1
      · exact h12.t2 ▸ htime ▸ hlate.2.2
    · rename_i hlate
      refine ⟨h12.t2, h12.sfLost, h12.liveness, ?_⟩
      rw [h12.sf, iff_self_or]
      rintro ⟨hlost, -, hlt⟩
      exact absurd ⟨h12.sfLost.trans hlost, BitVec.le_def.2 (Nat.zero_le _), by rw [h12.t2, htime]; exact hlt⟩ hlate
  · rw [if_neg hlive]
    rw [h1.liveness] at hlive
    refine ⟨h1.t2, h1.sfLost, h1.liveness, ?_⟩
    rw [h1.sf, iff_self_or]
    exact fun h => absurd h.2.1 hlive

/-- The loop warns when there is one. -/
theorem fillSfHosts_spec (sf : ComDataSf) (l : QueryLiveset) (n : Nat) :
    (forRange n l (fillSfHost c now sf)).approachingTimeout.sf = true ↔
      l.approachingTimeout.sf = true ∨ ∃ i < n, ToldLate now sf l i := by
  -- a turn keeps all that `ToldLate` reads, so the invariant can speak of the answer before the loop
  have hloop := forRange_inv (n := n) (s := l) (f := fillSfHost c now sf)
    (fun k l' => l'.t2 = l.t2 ∧ l'.sfLost = l.sfLost ∧ (∀ j, (l'.host j).liveness = (l.host j).liveness) ∧
      (l'.approachingTimeout.sf = true ↔ l.approachingTimeout.sf = true ∨ ∃ i < k, ToldLate now sf l i))
    ⟨rfl, rfl, fun _ => rfl, by simp⟩ ?_
  · exact hloop.2.2.2
  · rintro k l' - ⟨ht2, hlost, hlive, hwarn⟩
    obtain ⟨ht2', hlost', hlive', hwarn'⟩ := fillSfHost_spec c now sf l' k
    have htold : ToldLate now sf l' k ↔ ToldLate now sf l k := by
      unfold ToldLate
      rw [ht2, hlost, hlive]
    refine ⟨ht2'.trans ht2, hlost'.trans hlost, fun j => (hlive' j).trans (hlive j), ?_⟩
    rw [hwarn', hwarn, htold, Nat.exists_lt_succ_right, or_assoc]

/-- The State-File part warns for the latency, or in the loop. -/
theorem fillSf_spec (o : QueryObjects) (l : QueryLiveset) :
    (fillSf c now o l).approachingTimeout.sf = true ↔ l.approachingTimeout.sf = true ∨ l.sfLost = false ∧
      (0 ≤ o.sfLatency.latencyMax.toInt ∧ l.t2 / 2 < o.sfLatency.latencyMax ∨
        ∃ i < numHost c, (l.host i).liveness = true ∧ l.t2 / 2 < timeSince now (o.sf.timeLastSf i)) := by
  unfold fillSf
  extract_lets l1 _ l2 l3
  have hl3 : (l3.setHost (myIndex c) fun h => { h with
      sfListOnSf := fillList (numHost c) o.sf.sfdomain.isOn h.sfListOnSf
      sfListOnHb := fillList (numHost c) o.sf.sfdomain.isOn h.sfListOnHb
      sfCorrupted := o.sf.sfCorrupted }).approachingTimeout.sf = true ↔
      l2.approachingTimeout.sf = true ∨ ∃ i < numHost c, ToldLate now o.sf l2 i := fillSfHosts_spec c now o.sf l2 _
  have hl2 : l2.approachingTimeout.sf = true ↔ l.approachingTimeout.sf = true ∨
      l.sfLost = false ∧ 0 ≤ o.sfLatency.latencyMax.toInt ∧ l.t2 / 2 < o.sfLatency.latencyMax := by
    by_cases hlatency : l.sfLost = false ∧ 0 ≤ o.sfLatency.latencyMax.toInt ∧ l.t2 / 2 < o.sfLatency.latencyMax
    · have hif : l2 = { l1 with approachingTimeout := { l1.approachingTimeout with sf := true } } := if_pos hlatency
      rw [hif]
      exact iff_of_true rfl (.inr hlatency)
    · have hif : l2 = l1 := if_neg hlatency
      rw [hif, or_iff_left hlatency]
  have htold : ∀ i, ToldLate now o.sf l2 i ↔ ToldLate now o.sf l i := by
    intro i
    have hcases : l2 = l1 ∨ l2 = { l1 with approachingTimeout := { l1.approachingTimeout with sf := true } } := by
      simp only [l2]
      split
      · exact .inr rfl
      · exact .inl rfl
    rcases hcases with h | h <;> rw [h] <;> rfl
  have hloop : (∃ i < numHost c, ToldLate now o.sf l2 i) ↔ l.sfLost = false ∧
      ∃ i < numHost c, (l.host i).liveness = true ∧ l.t2 / 2 < timeSince now (o.sf.timeLastSf i) := by
    constructor
    · rintro ⟨i, hi, htime⟩
      obtain ⟨hlost, hlive, hlt⟩ := (htold i).1 htime
      exact ⟨hlost, i, hi, hlive, hlt⟩
    · rintro ⟨hlost, i, hi, hlive, hlt⟩
      exact ⟨i, hi, (htold i).2 ⟨hlost, hlive, hlt⟩⟩
  rw [hl3, hl2, hloop, or_assoc, ← and_or_left]

/-! ## The parts before it -/

theorem fillConf_spec (l : QueryLiveset) :
    (fillConf c l).t2 = c.common.parameter .statefileTimeout * 1000 ∧
      (fillConf c l).approachingTimeout.sf = l.approachingTimeout.sf := by
  unfold fillConf
  extract_lets l1
  have h : SameSf l1 (forRange (numHost c) l1 fun l hostIndex => l.setHost hostIndex fun h =>
      { h with hostId := (c.common.hostInfo hostIndex).hostId }) := .loop fun l i => .setHost l i fun _ => rfl
  exact ⟨h.t2, h.sf⟩

theorem fillSm_spec (sm : ComDataSm) (l : QueryLiveset) :
    (fillSm c sm l).t2 = l.t2 ∧ (fillSm c sm l).sfLost = sm.sr2 ∧
      (fillSm c sm l).approachingTimeout.sf = l.approachingTimeout.sf ∧
      ∀ i < numHost c, ((fillSm c sm l).host i).liveness = sm.currentLiveset.isOn i := by
  unfold fillSm
  extract_lets l1 l2
  have hloop : l2.t2 = l.t2 ∧ l2.approachingTimeout.sf = l.approachingTimeout.sf ∧
      ∀ i < numHost c, (l2.host i).liveness = sm.currentLiveset.isOn i := by
    refine forRange_inv (fun k (l' : QueryLiveset) => l'.t2 = l.t2 ∧ l'.approachingTimeout.sf = l.approachingTimeout.sf ∧
      ∀ i < k, (l'.host i).liveness = sm.currentLiveset.isOn i) ⟨rfl, rfl, by simp⟩ ?_
    rintro k l' - ⟨ht2, hsf, hlive⟩
    refine ⟨ht2, hsf, fun i hi => ?_⟩
    by_cases hik : i = k
    · subst hik
      simp [QueryLiveset.setHost]
    · have hlt : i < k := by omega
      simpa [QueryLiveset.setHost, hik] using hlive i hlt
  exact ⟨hloop.1, rfl, hloop.2.1, hloop.2.2⟩

variable (o : QueryObjects)

/-- The warning, in terms of the objects. -/
theorem queryLiveset_warns : (queryLiveset c now o).approachingTimeout.sf = true ↔
    o.sm.sr2 = false ∧
      (0 ≤ o.sfLatency.latencyMax.toInt ∧ c.common.parameter .statefileTimeout * 1000 / 2 < o.sfLatency.latencyMax ∨
        ∃ i < numHost c, o.sm.currentLiveset.isOn i = true ∧
          c.common.parameter .statefileTimeout * 1000 / 2 < timeSince now (o.sf.timeLastSf i)) := by
  unfold queryLiveset
  generalize hl : fillHb c now o (fillSm c o.sm (fillConf c .cleared)) = l
  have hsame := fillHb_same c now o (fillSm c o.sm (fillConf c .cleared))
  obtain ⟨hconft2, hconfsf⟩ := fillConf_spec c .cleared
  obtain ⟨hsmt2, hlost, hsmsf, hsmlive⟩ := fillSm_spec c o.sm (fillConf c .cleared)
  rw [hl] at hsame
  have ht2 : l.t2 = c.common.parameter .statefileTimeout * 1000 := hsame.t2.trans (hsmt2.trans hconft2)
  have hsr2 : l.sfLost = o.sm.sr2 := hsame.sfLost.trans hlost
  have hsf : l.approachingTimeout.sf = false := hsame.sf.trans (hsmsf.trans hconfsf)
  have hlive : ∀ i < numHost c, (l.host i).liveness = o.sm.currentLiveset.isOn i :=
    fun i hi => (hsame.liveness i).trans (hsmlive i hi)
  have hxapi : (fillBm o.mtcBondStatus (fillXapimon c now o.xapimon (fillSf c now o l))).approachingTimeout.sf =
      (fillSf c now o l).approachingTimeout.sf := (fillXapimon_same c now o.xapimon (fillSf c now o l)).sf
  rw [hxapi]
  rw [fillSf_spec, ht2, hsr2, hsf]
  have hlivelist : (∃ i < numHost c, (l.host i).liveness = true ∧
        c.common.parameter .statefileTimeout * 1000 / 2 < timeSince now (o.sf.timeLastSf i)) ↔
      ∃ i < numHost c, o.sm.currentLiveset.isOn i = true ∧
        c.common.parameter .statefileTimeout * 1000 / 2 < timeSince now (o.sf.timeLastSf i) := by
    refine exists_congr fun i => and_congr_right fun hi => ?_
    rw [hlive i hi]
  rw [hlivelist, or_iff_right Bool.false_ne_true]

/-! ## Times in 32 bits -/

theorem lt_timeSince_iff {time : MtcClock} {half : MtcU32} (hhalf : half.toNat < 2 ^ 31) :
    half < timeSince now time ↔ time < 0 ∨ (half.toNat : Int) < (now - time) % 2 ^ 32 := by
  rw [BitVec.lt_def, timeSince]
  split
  · rename_i hneg
    have hmax : (-1 : BitVec 32).toNat = 2 ^ 32 - 1 := by decide
    rw [hmax]
    exact iff_of_true (by omega) (.inl hneg)
  · rename_i hknown
    rw [BitVec.toNat_ofInt, or_iff_right hknown]
    omega

theorem lt_latency_iff {latency : MtcS32} {half : MtcU32} (h : 0 ≤ latency.toInt) :
    half < latency ↔ (half.toNat : Int) < latency.toInt := by
  have hnat : latency.toInt = (latency.toNat : Int) := by
    rw [BitVec.toInt_eq_toNat_cond] at h ⊢
    split at h
    · rw [if_pos ‹_›]
    · have hlt := latency.isLt
      omega
  rw [hnat, BitVec.lt_def, Int.ofNat_lt]

/-! ## The warning -/

/-- Half of the `T2` of the answer, which is in milliseconds. -/
def halfT2 : MtcU32 := c.common.parameter .statefileTimeout * 1000 / 2

/-- The maximum latency is available, and above half of T2. -/
def LatencyApproaches : Prop := 0 ≤ o.sfLatency.latencyMax.toInt ∧ ((halfT2 c).toNat : Int) < o.sfLatency.latencyMax.toInt

/-- A configured host of the liveset. -/
def InLiveset (i : Nat) : Prop := i < numHost c ∧ o.sm.currentLiveset.isOn i = true

/-- The last update of a host is known, and more than half of T2 ago. -/
def UpdateApproaches (i : Nat) : Prop :=
  0 ≤ o.sf.timeLastSf i ∧ ((halfT2 c).toNat : Int) < now - o.sf.timeLastSf i

/-- When the warning is due. -/
def SfApproaching : Prop :=
  o.sm.sr2 = false ∧ (LatencyApproaches c o ∨ ∃ i, InLiveset c o i ∧ UpdateApproaches c now o i)

/-- A host of the liveset is not known, or the lowest 32 bits of the time since its last update are above half of T2. -/
def ToldApproaching : Prop :=
  ∃ i, InLiveset c o i ∧ (o.sf.timeLastSf i < 0 ∨ ((halfT2 c).toNat : Int) < (now - o.sf.timeLastSf i) % 2 ^ 32)

/-- SR-2 is on, or the latency is above half of T2. Or a last update of a host of the liveset is more than that ago, and
what is told of them says so as well. Or there is none, all of them are known, and none so far in the future that the
lowest 32 bits are above half of T2. -/
def TimesTold : Prop :=
  o.sm.sr2 = true ∨ LatencyApproaches c o ∨
    ((∃ i, InLiveset c o i ∧ UpdateApproaches c now o i) ∧ ToldApproaching c now o) ∨
    ∀ i, InLiveset c o i → ¬UpdateApproaches c now o i ∧ 0 ≤ o.sf.timeLastSf i ∧
      (now < o.sf.timeLastSf i → (now - o.sf.timeLastSf i) % 2 ^ 32 ≤ ((halfT2 c).toNat : Int))

theorem halfT2_lt : (halfT2 c).toNat < 2 ^ 31 := by
  rw [halfT2, BitVec.toNat_udiv]
  have hlt := (c.common.parameter .statefileTimeout * 1000).isLt
  have htwo : (2 : BitVec 32).toNat = 2 := rfl
  rw [htwo]
  omega

theorem warns_iff : (queryLiveset c now o).approachingTimeout.sf = true ↔
    o.sm.sr2 = false ∧ (LatencyApproaches c o ∨ ToldApproaching c now o) := by
  rw [queryLiveset_warns]
  have hlatency : 0 ≤ o.sfLatency.latencyMax.toInt ∧ halfT2 c < o.sfLatency.latencyMax ↔ LatencyApproaches c o :=
    and_congr_right lt_latency_iff
  have hhosts : (∃ i < numHost c, o.sm.currentLiveset.isOn i = true ∧ halfT2 c < timeSince now (o.sf.timeLastSf i)) ↔
      ToldApproaching c now o :=
    exists_congr fun i => by rw [InLiveset, and_assoc, lt_timeSince_iff now (halfT2_lt c)]
  exact and_congr_right' (or_congr hlatency hhosts)

/-- A time that is known, not in the future and not above half of T2 is told as it is. -/
theorem quiet_iff : (∀ i, InLiveset c o i → ¬UpdateApproaches c now o i ∧ 0 ≤ o.sf.timeLastSf i ∧
      (now < o.sf.timeLastSf i → (now - o.sf.timeLastSf i) % 2 ^ 32 ≤ ((halfT2 c).toNat : Int))) ↔
    (¬∃ i, InLiveset c o i ∧ UpdateApproaches c now o i) ∧ ¬ToldApproaching c now o := by
  have hhalf := halfT2_lt c
  constructor
  · intro h
    constructor
    · rintro ⟨i, hi, hupdate⟩
      exact (h i hi).1 hupdate
    · rintro ⟨i, hi, hneg | hlow⟩
      · exact absurd hneg (not_lt.2 (h i hi).2.1)
      · obtain ⟨hupdate, hknown, hfuture⟩ := h i hi
        by_cases hlt : now < o.sf.timeLastSf i
        · exact absurd hlow (not_lt.2 (hfuture hlt))
        · -- neither in the future nor above half of T2, so it fits in 32 bits
          have hage : ¬((halfT2 c).toNat : Int) < now - o.sf.timeLastSf i := fun hage => hupdate ⟨hknown, hage⟩
          have hpos : (0 : Int) ≤ now - o.sf.timeLastSf i := Int.sub_nonneg_of_le (not_lt.1 hlt)
          omega
  · rintro ⟨hupdate, htold⟩ i hi
    refine ⟨fun h => hupdate ⟨i, hi, h⟩, ?_, fun _ => ?_⟩
    · exact not_lt.1 fun h => htold ⟨i, hi, .inl h⟩
    · exact not_lt.1 fun h => htold ⟨i, hi, .inr h⟩

/-- The warning for the State-File is given when it is due and only then, exactly if the times are told right. -/
theorem sf_approaching_timeout_iff :
    ((scriptServiceDoQueryLiveset c now o).1.approachingTimeout.sf = true ↔ SfApproaching c now o) ↔ TimesTold c now o := by
  have hwarns : (scriptServiceDoQueryLiveset c now o).1.approachingTimeout.sf = true ↔ _ := warns_iff c now o
  rw [hwarns, SfApproaching, TimesTold, quiet_iff]
  cases o.sm.sr2
  · by_cases hlatency : LatencyApproaches c o
    · simp [hlatency]
    · rw [or_iff_right hlatency, or_iff_right hlatency, or_iff_right hlatency]
      simp only [true_and, Bool.false_eq_true, false_or]
      rw [@iff_comm (ToldApproaching c now o)]
      exact iff_iff_and_or_not_and_not
  · simp

end

/-! ## A host that has not been seen -/

/-- A pool of two hosts, seen from the first one, with a State-File timeout of 30 s. -/
def startedPair : HaConfigData where
  version := validVersionString
  common := { HaConfigCommon.initial with host := [.cleared, .cleared], hostnum_le := by decide }
  localConfig := { HaConfigLocal.initial with localhostIndex := 0 }

/-- Both hosts are in the liveset, and host 1 has not written to the State-File yet. -/
def unseenHost : QueryObjects where
  sm := { ComDataSm.initial with currentLiveset := 3 }
  smApproachingTimeout := ⟨false, false, false⟩
  hb := .initial
  hbLatency := ⟨-1, -1, -1⟩
  hbErrString _ := []
  hbTimeSinceXapiRestart _ := -1
  sf := { ComDataSf.initial 0 with timeLastSf := fun i => if i = 0 then 9000 else -1 }
  sfLatency := ⟨-1, -1, -1⟩
  xapimon := ⟨⟨-1, -1, -1⟩, -1, -1, []⟩
  mtcBondStatus := .noerr

/-- The warning is given, and is not due. -/
theorem unseen_host_warns : (scriptServiceDoQueryLiveset startedPair 10000 unseenHost).1.approachingTimeout.sf = true ∧
    ¬SfApproaching startedPair 10000 unseenHost := by
  constructor
  · have hwarns : (scriptServiceDoQueryLiveset startedPair 10000 unseenHost).1.approachingTimeout.sf = true ↔ _ :=
      warns_iff startedPair 10000 unseenHost
    rw [hwarns]
    refine ⟨rfl, .inr ⟨1, ⟨by decide, by decide⟩, .inl ?_⟩⟩
    decide
  · rintro ⟨-, ⟨hlatency, -⟩ | ⟨i, ⟨hi, -⟩, hknown, hupdate⟩⟩
    · revert hlatency
      decide
    · have hcases : i = 0 ∨ i = 1 := by
        have htwo : numHost startedPair = 2 := rfl
        omega
      rcases hcases with rfl | rfl
      · revert hupdate
        decide
      · revert hknown
        decide

end Xha
