/-
A pool that boots without a liveset: the hosts that reach the start timeout vote on who may form one.
Unlike in the fault handler no merge precedes the vote, and every host that the elected one hears wins
with its own heartbeat domain. Only one host can be elected, so two winners agree exactly when the hosts that
it hears have its domain (`boot_agrees_iff`).
-/
import Xha.Sm.Start

namespace Xha

open Loop

/-- A pool in state ACTIVE whose configured hosts boot on a common State-File domain. -/
structure BootPool where
  config : HaConfig
  sfdomain : HostMap
  hbdomain : Nat → HostMap
  weight : Nat → MtcU32
  hears_self : ∀ i < config.hostnum, (hbdomain i).isOn i = true
  hears_sym : ∀ i < config.hostnum, ∀ j < config.hostnum, (hbdomain i).isOn j = (hbdomain j).isOn i
  hears_configured : ∀ i j, (hbdomain i).isOn j = true → j < config.hostnum

namespace BootPool

variable (P : BootPool)

/-- What booting host `i` reads: its own domains, the State-File records of the active hosts, nobody
excluded or staying out, and no liveset. -/
structure Snapshot (i : Nat) (h : Host) : Prop where
  hbdomain : h.hb.hbdomain = P.hbdomain i
  notjoining : ∀ j, h.hb.notjoining.isOn j = false
  sfdomain : h.sf.sfdomain = P.sfdomain
  sfAccess : h.sf.sfAccess = true
  excluded : ∀ j, h.sf.excluded.isOn j = false
  weight : h.sf.weight = P.weight
  sfRaw : ∀ j < P.config.hostnum, P.sfdomain.isOn j = true →
    (h.sf.raw j).hbdomain = P.hbdomain j ∧ (h.sf.raw j).sfdomain = P.sfdomain
  starting : ∀ j < P.config.hostnum, P.sfdomain.isOn j = true → h.sf.starting.isOn j = true
  noLiveset : (h.sm.sr2 && isAllHostsUp P.config.hostnum (h.hb.hbdomain ||| h.sf.excluded)) = false

/-- Host `a` reaches the start timeout, wins the vote there and forms `liveset`. -/
def Forms (a : Nat) (liveset : HostMap) : Prop :=
  ∃ (ha : a < P.config.hostnum) (first : StartRead) (rest : List StartRead) (now : Host),
    (∀ r ∈ first :: rest, P.Snapshot a r.host ∧ startTurn (P.config.at a ha) sfStateActive false r = none) ∧
    P.Snapshot a now ∧ testStartCriteria (P.config.at a ha) sfStateActive false first rest now = .formed liveset

/-- Boot agreement: all livesets formed at the start timeout are the same. -/
def Agrees : Prop := ∀ a b la lb, P.Forms a la → P.Forms b lb → la = lb

/-- The weight of the partition host `j` sees. -/
def size (j : Nat) : Nat := sizeOfHosts P.weight ((P.sfdomain &&& P.hbdomain j).hosts P.config.hostnum)

/-- The active host with the heaviest partition, the first of several. -/
def Heaviest (w : Nat) : Prop :=
  w < P.config.hostnum ∧ P.sfdomain.isOn w = true ∧
    ∀ j < P.config.hostnum, P.sfdomain.isOn j = true → P.size j ≤ P.size w ∧ (j < w → P.size j < P.size w)

/-- There is one heaviest host at most. -/
theorem Heaviest.unique {P : BootPool} {w w' : Nat} (hw : P.Heaviest w) (hw' : P.Heaviest w') : w = w' := by
  have h1 := hw.2.2 w' hw'.1 hw'.2.1
  have h2 := hw'.2.2 w hw.1 hw.2.1
  rcases Nat.lt_trichotomy w w' with hlt | heq | hgt
  · have := h2.2 hlt; omega
  · exact heq
  · have := h1.2 hgt; omega

/-- Every active host that the heaviest one hears, hears the same hosts as it. -/
def HearsAlike : Prop :=
  ∀ w, P.Heaviest w → ∀ a < P.config.hostnum, P.sfdomain.isOn a = true → (P.hbdomain w).isOn a = true →
    P.hbdomain a = P.hbdomain w

/-! ## The vote -/

section

variable {P} {a : Nat} (ha : a < P.config.hostnum) {h : Host} (hs : P.Snapshot a h)
  (hfit : ∀ j < P.config.hostnum, P.sfdomain.isOn j = true → P.size j < 2 ^ 31)

include hs hfit

theorem Snapshot.partitionSize {j : Nat} (hj : j < P.config.hostnum) :
    (partitionSizeAt (P.config.at a ha) h.hb h.sf h.sf.weight j).toInt =
      if P.sfdomain.isOn j then (P.size j : Int) else 0 := by
  unfold partitionSizeAt
  rw [hs.sfdomain, hs.hbdomain, hs.weight]
  cases hact : P.sfdomain.isOn j
  · simp
  · have hsize : (getPartitionSize P.config.hostnum P.sfdomain (P.hbdomain j) P.weight).toInt = P.size j :=
      getPartitionSize_toInt (hfit j hj hact)
    simp only [Bool.not_true, Bool.false_eq_true, if_false, if_true]
    split
    · rename_i hme
      rw [show j = a from hme] at hsize ⊢
      exact hsize
    · rw [(hs.sfRaw j hj hact).1, (hs.sfRaw j hj hact).2]
      exact hsize

theorem Snapshot.elected {w : Nat} :
    electWinner P.config.hostnum (partitionSizeAt (P.config.at a ha) h.hb h.sf h.sf.weight) = some w ↔ P.Heaviest w := by
  have hsize := fun {j : Nat} => hs.partitionSize ha hfit (j := j)
  have hpos : ∀ j < P.config.hostnum, P.sfdomain.isOn j = true → 0 < P.size j := fun j hj hact =>
    sizeOfHosts_pos ⟨j, HostMap.mem_hosts.2 ⟨hj, by rw [HostMap.isOn_and, hact, P.hears_self j hj]; rfl⟩⟩
  have sound : ∀ w, electWinner P.config.hostnum (partitionSizeAt (P.config.at a ha) h.hb h.sf h.sf.weight) = some w →
      P.Heaviest w := by
    intro w hw
    obtain ⟨hlt, hwpos, hmax, hfirst⟩ := electWinner_some hw
    rw [hsize hlt] at hwpos hmax hfirst
    have hact : P.sfdomain.isOn w = true := by
      by_contra hoff
      rw [if_neg hoff] at hwpos
      omega
    rw [if_pos hact] at hmax hfirst
    refine ⟨hlt, hact, fun j hj hactj => ⟨?_, fun hjw => ?_⟩⟩
    · have := hmax j hj
      rw [hsize hj, if_pos hactj] at this
      omega
    · have := hfirst j hjw
      rw [hsize hj, if_pos hactj] at this
      omega
  refine ⟨sound w, fun hw => ?_⟩
  cases hel : electWinner P.config.hostnum (partitionSizeAt (P.config.at a ha) h.hb h.sf h.sf.weight) with
  | none =>
    have := electWinner_none hel w hw.1
    rw [hsize hw.1, if_pos hw.2.1] at this
    have := hpos w hw.1 hw.2.1
    omega
  | some w' =>
    rw [(sound w' hel).unique hw]

/-- The winners are the active hosts that the heaviest one hears. -/
theorem Snapshot.wins :
    amIInLargestPartition (P.config.at a ha) h.hb h.sf h.sf.weight = true ↔
      ∃ w, P.Heaviest w ∧ P.sfdomain.isOn a = true ∧ (P.hbdomain w).isOn a = true := by
  unfold amIInLargestPartition
  cases hel : electWinner (P.config.at a ha).hostnum (partitionSizeAt (P.config.at a ha) h.hb h.sf h.sf.weight) with
  | none =>
    refine iff_of_false (by simp) ?_
    rintro ⟨w, hw, -⟩
    cases hel.symm.trans ((hs.elected ha hfit).2 hw)
  | some w =>
    have hw := (hs.elected ha hfit).1 hel
    have hsym := P.hears_sym w hw.1 a ha
    constructor
    · intro hwin
      refine ⟨w, hw, ?_⟩
      by_cases hwa : w = a
      · subst hwa
        exact ⟨hw.2.1, P.hears_self w hw.1⟩
      · simp only [hwa, HaConfig.at, decide_false, Bool.false_or, Bool.and_eq_true] at hwin
        rw [(hs.sfRaw w hw.1 hw.2.1).1, (hs.sfRaw w hw.1 hw.2.1).2] at hwin
        exact ⟨hwin.1.1.1, hwin.1.1.2⟩
    · rintro ⟨w', hw', hact, hheard⟩
      rw [hw'.unique hw] at hheard
      simp only [HaConfig.at, Bool.or_eq_true, Bool.and_eq_true]
      right
      rw [(hs.sfRaw w hw.1 hw.2.1).1, (hs.sfRaw w hw.1 hw.2.1).2, hs.sfdomain, hs.hbdomain, ← hsym]
      exact ⟨⟨⟨hact, hheard⟩, hw.2.1⟩, hheard⟩

end

/-! ## The livesets formed -/

theorem Snapshot.flags {P : BootPool} {a : Nat} (ha : a < P.config.hostnum) {h : Host} (hs : P.Snapshot a h) :
    startFlags (P.config.at a ha) sfStateActive false h.sm h.hb h.sf = ⟨false, false, true⟩ := by
  have hempty : isEmptyLiveset P.config.hostnum (sfdomainNonstarting P.config.hostnum h.sf) = true := by
    refine isEmptyLiveset_iff.2 fun j hj => ?_
    rw [sfdomainNonstarting, HostMap.isOn_maskUnconfig, HostMap.isOn_diff, hs.sfdomain]
    cases hact : P.sfdomain.isOn j
    · rfl
    · rw [hs.starting j hj hact]; rfl
  unfold startFlags
  have h1 : (isEmptyLiveset (P.config.at a ha).hostnum (sfdomainNonstarting (P.config.at a ha).hostnum h.sf)) = true := hempty
  have h2 : (h.sm.sr2 && isAllHostsUp (P.config.at a ha).hostnum (h.hb.hbdomain ||| h.sf.excluded)) = false := hs.noLiveset
  rw [h1, h2]
  rfl

/-- At the timeout a winner forms its own heartbeat domain. -/
theorem Snapshot.timeout {P : BootPool} {a : Nat} (ha : a < P.config.hostnum) {r : StartRead} {now : Host}
    (hr : P.Snapshot a r.host) :
    startTimeout (P.config.at a ha) sfStateActive false r now =
      if amIInLargestPartition (P.config.at a ha) now.hb now.sf now.sf.weight then .formed (P.hbdomain a)
      else .failed .bootFailed := by
  have hliveset : r.host.hb.hbdomain.diff r.host.hb.notjoining = P.hbdomain a := by
    refine HostMap.ext fun j => ?_
    rw [HostMap.isOn_diff, hr.notjoining, hr.hbdomain]
    simp
  unfold startTimeout
  rw [hr.flags ha, hliveset]
  rfl

theorem Forms.spec {P : BootPool} (hfit : ∀ j < P.config.hostnum, P.sfdomain.isOn j = true → P.size j < 2 ^ 31)
    {a : Nat} {liveset : HostMap} (hf : P.Forms a liveset) :
    liveset = P.hbdomain a ∧ ∃ w, P.Heaviest w ∧ a < P.config.hostnum ∧ P.sfdomain.isOn a = true ∧
      (P.hbdomain w).isOn a = true := by
  obtain ⟨ha, first, rest, now, hreads, hnow, htest⟩ := hf
  obtain ⟨r, hr, hloop⟩ := startLoop_timeout (P.config.at a ha) sfStateActive false now rest first
    fun r hr => (hreads r hr).2
  have htest' : startLoop (P.config.at a ha) sfStateActive false first rest now = .formed liveset := htest
  rw [hloop, (hreads r hr).1.timeout ha] at htest'
  split at htest'
  · rename_i hwin
    obtain ⟨w, hw, hact, hheard⟩ := (hnow.wins ha hfit).1 hwin
    cases htest'
    exact ⟨rfl, w, hw, ha, hact, hheard⟩
  · cases htest'

/-- What a booting host reads while nobody has proposed a liveset yet. -/
def bootHost (P : BootPool) (a : Nat) : Host :=
  let h := Host.initial a
  { h with
    hb := { h.hb with hbdomain := P.hbdomain a }
    sf := { h.sf with
      sfAccess := true
      sfdomain := P.sfdomain
      starting := P.sfdomain
      weight := P.weight
      raw := fun j => ⟨.empty, .empty, P.hbdomain j, P.sfdomain⟩ } }

theorem bootHost_snapshot (P : BootPool) (a : Nat) : P.Snapshot a (P.bootHost a) where
  hbdomain := rfl
  notjoining := HostMap.isOn_empty
  sfdomain := rfl
  sfAccess := rfl
  excluded := HostMap.isOn_empty
  weight := rfl
  sfRaw _ _ _ := ⟨rfl, rfl⟩
  starting _ _ h := h
  noLiveset := rfl

/-- A host that hears another one waits for it, so it does reach the timeout. -/
theorem bootHost_waits {P : BootPool} {a b : Nat} (ha : a < P.config.hostnum) (hb : b < P.config.hostnum)
    (hne : b ≠ a) :
    startTurn (P.config.at a ha) sfStateActive false ⟨P.bootHost a, (P.bootHost a).hb, [], (P.bootHost a).sf⟩ = none := by
  have hflags := (P.bootHost_snapshot a).flags ha
  unfold startTurn
  dsimp only
  rw [hflags, (P.bootHost_snapshot a).sfAccess]
  simp only [Bool.not_true, Bool.false_eq_true, if_false]
  split
  · rename_i hup
    rw [Bool.and_eq_true] at hup
    have hheard := isAllHostsUp_iff.1 hup.1 b hb
    have hnot : waitUntilAllHostsBooted (P.config.at a ha) (P.bootHost a).hb [] = false := by
      simp only [waitUntilAllHostsBooted, List.any_cons, List.any_nil, Bool.or_false, allHostsBooted]
      rw [← Bool.not_eq_true, List.all_eq_true]
      intro hall
      have := hall b (List.mem_range.2 hb)
      rw [hheard] at this
      simp [bootHost, Host.initial, ComDataHb.initial, RawData.initial, HaConfig.at, hne] at this
    rw [hnot]
    rfl
  · rfl

theorem forms_of_heard {P : BootPool} (hfit : ∀ j < P.config.hostnum, P.sfdomain.isOn j = true → P.size j < 2 ^ 31)
    {w a b : Nat} (hw : P.Heaviest w) (ha : a < P.config.hostnum) (hact : P.sfdomain.isOn a = true)
    (hheard : (P.hbdomain w).isOn a = true) (hb : b < P.config.hostnum) (hne : b ≠ a) :
    P.Forms a (P.hbdomain a) := by
  have hs := P.bootHost_snapshot a
  refine ⟨ha, ⟨P.bootHost a, (P.bootHost a).hb, [], (P.bootHost a).sf⟩, [], P.bootHost a, ?_, hs, ?_⟩
  · intro r hr
    rw [List.mem_singleton] at hr
    subst hr
    exact ⟨hs, bootHost_waits ha hb hne⟩
  · change startLoop _ _ _ _ _ _ = _
    rw [startLoop, bootHost_waits ha hb hne, Option.getD_none, Snapshot.timeout ha hs,
      (hs.wins ha hfit).2 ⟨w, hw, hact, hheard⟩]
    rfl

/-- The livesets formed at the start timeout agree exactly when the active hosts that the heaviest one
hears all hear the same hosts as it. -/
theorem boot_agrees_iff (P : BootPool)
    (hfit : ∀ j < P.config.hostnum, P.sfdomain.isOn j = true → P.size j < 2 ^ 31) : P.Agrees ↔ P.HearsAlike := by
  constructor
  · intro hagree w hw a ha hact hheard
    by_cases hne : a = w
    · rw [hne]
    · exact hagree a w _ _ (forms_of_heard hfit hw ha hact hheard hw.1 (Ne.symm hne))
        (forms_of_heard hfit hw hw.1 hw.2.1 (P.hears_self w hw.1) ha hne)
  · intro halike a b la lb hfa hfb
    obtain ⟨rfl, w, hw, ha, hacta, hheard⟩ := hfa.spec hfit
    obtain ⟨rfl, w', hw', hb, hactb, hheard'⟩ := hfb.spec hfit
    have hsame := hw'.unique hw
    subst hsame
    rw [halike w' hw a ha hacta hheard, halike w' hw' b hb hactb hheard']

/-- Three hosts on the State-File, the outer two cut off from each other. -/
def pathBoot : BootPool where
  config := .triple
  sfdomain := 7
  hbdomain i := if i = 0 then 3 else if i = 1 then 7 else 6
  weight _ := 0
  hears_self := by decide
  hears_sym := by decide
  hears_configured i := HostMap.forall_isOn (by
    by_cases h0 : i = 0
    · rw [if_pos h0]; decide +kernel
    · by_cases h1 : i = 1
      · rw [if_neg h0, if_pos h1]; decide +kernel
      · rw [if_neg h0, if_neg h1]; decide +kernel)

theorem boot_agrees_iff_pathBoot : pathBoot.Agrees ↔ pathBoot.HearsAlike :=
  boot_agrees_iff pathBoot (by decide +kernel)

/-- Hosts 0 and 2 both win with host 1 and form different livesets. -/
theorem pathBoot_disagrees : ¬ pathBoot.Agrees := by
  have hfit : ∀ j < pathBoot.config.hostnum, pathBoot.sfdomain.isOn j = true → pathBoot.size j < 2 ^ 31 := by
    decide +kernel
  have hw : pathBoot.Heaviest 1 := by
    refine ⟨by decide, by decide, ?_⟩
    decide +kernel
  intro hagree
  have hsame := hagree 0 2 _ _
    (forms_of_heard hfit hw (a := 0) (b := 1) (by decide) (by decide) (by decide) (by decide) (by decide))
    (forms_of_heard hfit hw (a := 2) (b := 1) (by decide) (by decide) (by decide) (by decide) (by decide))
  exact absurd hsame (by decide)

end BootPool

end Xha
