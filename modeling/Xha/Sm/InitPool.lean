/-
A pool in state INIT: `test_Start_Criteria` (sm.c) forms a liveset of all configured hosts or none, but
`wait_until_all_hosts_booted` passes over a host that has left the heartbeat domain since the copies were taken.
`init_pool_is_whole_iff` says that this is the only way to start with a host missing: turn by turn, a wait that
ends with every host of the copies still heard has asked them all.
-/
import Xha.Sm.Start

namespace Xha

open Loop

variable {c : HaConfig} {excluded : Bool}

/-! ## The evaluation that ends the wait -/

/-- The evaluation at which `wait_until_all_hosts_booted` returns TRUE. -/
def bootEvaluation (c : HaConfig) (first : ComDataHb) (rest : List ComDataHb) : Option ComDataHb :=
  (first :: rest).find? (allHostsBooted c)

/-- The evaluation in the turn that concludes. -/
def concludingEvaluation (c : HaConfig) (poolState : PoolState) (excluded : Bool) :
    StartRead → List StartRead → Option ComDataHb
  | r, [] => bootEvaluation c r.bootFirst r.bootRest
  | r, r' :: rest =>
    match startTurn c poolState excluded r with
    | some _ => bootEvaluation c r.bootFirst r.bootRest
    | none => concludingEvaluation c poolState excluded r' rest

/-- Every other configured host is in the heartbeat domain and has proposed the local host in its last heartbeat. -/
def AllReady (c : HaConfig) (phb : ComDataHb) : Prop := ∀ i < c.hostnum, i ≠ c.myIndex →
  phb.hbdomain.isOn i = true ∧ (phb.raw i).proposedLiveset.isOn c.myIndex = true

theorem allHostsBooted_iff {phb : ComDataHb} : allHostsBooted c phb = true ↔
    ∀ i < c.hostnum, i ≠ c.myIndex → phb.hbdomain.isOn i = true → (phb.raw i).proposedLiveset.isOn c.myIndex = true := by
  simp only [allHostsBooted, List.all_eq_true, List.mem_range, Bool.not_eq_true', Bool.and_eq_false_imp,
    Bool.not_eq_false', bne_iff_ne, ne_eq, Bool.and_eq_true, and_imp]

/-! ## What a turn reads -/

/-- The turns a test makes, up to the one that concludes. -/
def turnsRead (c : HaConfig) (poolState : PoolState) (excluded : Bool) : StartRead → List StartRead → List StartRead
  | r, [] => [r]
  | r, r' :: rest =>
    match startTurn c poolState excluded r with
    | some _ => [r]
    | none => r :: turnsRead c poolState excluded r' rest

/-- The copies of the turn have all configured hosts in both domains, and when for the first time everybody heard has
proposed the local host, a host of the copies has left the heartbeat domain. -/
def StartRead.LosesHost (c : HaConfig) (r : StartRead) : Prop :=
  isAllHostsUp c.hostnum r.host.hb.hbdomain = true ∧ isAllHostsUp c.hostnum r.host.sf.sfdomain = true ∧
  ∃ before e after, r.bootFirst :: r.bootRest = before ++ e :: after ∧ (∀ b ∈ before, allHostsBooted c b = false) ∧
    allHostsBooted c e = true ∧
    ∃ i < c.hostnum, i ≠ c.myIndex ∧ r.host.hb.hbdomain.isOn i = true ∧ e.hbdomain.isOn i = false

/-- The evaluation that ends the wait is the first at which everybody heard has proposed the local host. -/
theorem bootEvaluation_eq_some {first e : ComDataHb} {rest : List ComDataHb} :
    bootEvaluation c first rest = some e ↔ allHostsBooted c e = true ∧
      ∃ before after, first :: rest = before ++ e :: after ∧ ∀ b ∈ before, allHostsBooted c b = false := by
  unfold bootEvaluation
  rw [List.find?_eq_some_iff_append]
  simp only [Bool.not_eq_true']

/-- A turn whose copies have everybody asks everybody, unless it loses a host. -/
theorem allReady_iff {r : StartRead} {e : ComDataHb} (hhb : isAllHostsUp c.hostnum r.host.hb.hbdomain = true)
    (hsf : isAllHostsUp c.hostnum r.host.sf.sfdomain = true) (he : bootEvaluation c r.bootFirst r.bootRest = some e) :
    AllReady c e ↔ ¬ r.LosesHost c := by
  constructor
  · rintro hready ⟨-, -, before, e', after, heq, hbefore, hbooted, i, hi, hme, -, hoff⟩
    have he' : bootEvaluation c r.bootFirst r.bootRest = some e' :=
      bootEvaluation_eq_some.2 ⟨hbooted, before, after, heq, hbefore⟩
    rw [he] at he'
    cases he'
    rw [(hready i hi hme).1] at hoff
    cases hoff
  · intro hnot i hi hme
    obtain ⟨hbooted, before, after, heq, hbefore⟩ := bootEvaluation_eq_some.1 he
    have hheard : e.hbdomain.isOn i = true := by
      by_contra hoff
      exact hnot ⟨hhb, hsf, before, e, after, heq, hbefore, hbooted, i, hi, hme, isAllHostsUp_iff.1 hhb i hi,
        Bool.not_eq_true _ ▸ hoff⟩
    exact ⟨hheard, allHostsBooted_iff.1 hbooted i hi hme hheard⟩

/-- The wait of a turn that loses a host ends. -/
theorem StartRead.LosesHost.waited {r : StartRead} (h : r.LosesHost c) :
    waitUntilAllHostsBooted c r.bootFirst r.bootRest = true := by
  obtain ⟨-, -, before, e, after, heq, -, hbooted, -⟩ := h
  unfold waitUntilAllHostsBooted
  rw [heq, List.any_eq_true]
  exact ⟨e, by simp, hbooted⟩

/-- As long as nobody leaves the heartbeat domain, no host is lost. -/
theorem StartRead.keepsHosts {r : StartRead} (h : ∀ e ∈ r.bootFirst :: r.bootRest, ∀ i < c.hostnum,
    r.host.hb.hbdomain.isOn i = true → e.hbdomain.isOn i = true) : ¬ r.LosesHost c := by
  rintro ⟨-, -, before, e, after, heq, -, -, i, hi, -, hon, hoff⟩
  have hmem : e ∈ r.bootFirst :: r.bootRest := by simp [heq]
  rw [h e hmem i hi hon] at hoff
  cases hoff

/-! ## The test in state INIT -/

/-- How the test ends in state INIT. -/
inductive InitEnd (c : HaConfig) (turns : List StartRead) (evaluation : Option ComDataHb) : StartResult → Prop
  | formed {liveset : HostMap} : (∀ i < c.hostnum, liveset.isOn i = true) →
      (∃ e, evaluation = some e ∧ (AllReady c e ↔ ∀ r ∈ turns, ¬ r.LosesHost c)) →
      InitEnd c turns evaluation (.formed liveset)
  | failed {error : StartError} : InitEnd c turns evaluation (.failed error)

theorem startFlags_init (sm : ComDataSm) (hb : ComDataHb) (sf : ComDataSf) :
    (startFlags c sfStateInit excluded sm hb sf).init = true := by
  simp [startFlags]

theorem startTurn_init {r : StartRead} {result : StartResult} (h : startTurn c sfStateInit excluded r = some result) :
    InitEnd c [r] (bootEvaluation c r.bootFirst r.bootRest) result := by
  unfold startTurn at h
  dsimp only at h
  rw [startFlags_init] at h
  split at h
  · cases h
    exact .failed
  · split at h
    · cases h
      exact .failed
    · split at h
      · rename_i hup
        split at h
        · rename_i hwait
          cases h
          rw [Bool.and_eq_true] at hup
          obtain ⟨e, he⟩ := Option.isSome_iff_exists.1 (List.find?_isSome.2 (List.any_eq_true.1 hwait))
          refine .formed (isAllHostsUp_iff.1 hup.1) ⟨e, he, ?_⟩
          rw [List.forall_mem_singleton]
          exact allReady_iff hup.1 hup.2 he
        · cases h
      · cases h
    · rename_i he _
      cases he

/-- A turn that goes on has lost nobody: its wait did not end. -/
theorem startTurn_goesOn {r : StartRead} (h : startTurn c sfStateInit excluded r = none) : ¬ r.LosesHost c := by
  intro hloses
  unfold startTurn at h
  dsimp only at h
  rw [startFlags_init, hloses.1, hloses.2.1, hloses.waited] at h
  split at h
  · cases h
  · split at h
    · cases h
    · cases h
    · rename_i he _
      cases he

theorem startTimeout_init {r : StartRead} {now : Host} :
    ∃ error, startTimeout c sfStateInit excluded r now = .failed error := by
  unfold startTimeout
  dsimp only
  rw [startFlags_init]
  cases (startFlags c sfStateInit excluded r.host.sm r.host.hb r.host.sf).emptyLiveset <;> exact ⟨_, rfl⟩

/-- Turn by turn, to the one that concludes or to the timeout. -/
theorem startLoop_init {now : Host} : ∀ (rest : List StartRead) (first : StartRead),
    InitEnd c (turnsRead c sfStateInit excluded first rest) (concludingEvaluation c sfStateInit excluded first rest)
      (startLoop c sfStateInit excluded first rest now)
  | [], first => by
    rw [startLoop]
    cases ht : startTurn c sfStateInit excluded first with
    | some result => exact startTurn_init ht
    | none =>
      obtain ⟨error, he⟩ : ∃ error, startTimeout c sfStateInit excluded first now = .failed error := startTimeout_init
      rw [Option.getD_none, he]
      exact .failed
  | r' :: rest, first => by
    rw [startLoop, concludingEvaluation, turnsRead]
    cases ht : startTurn c sfStateInit excluded first with
    | some result => exact startTurn_init ht
    | none =>
      have hrest : InitEnd c (turnsRead c sfStateInit excluded r' rest)
          (concludingEvaluation c sfStateInit excluded r' rest) (startLoop c sfStateInit excluded r' rest now) :=
        startLoop_init rest r'
      dsimp only
      cases hend : startLoop c sfStateInit excluded r' rest now with
      | formed liveset =>
        rw [hend] at hrest
        cases hrest with
        | formed hall hev =>
          obtain ⟨e, he, hiff⟩ := hev
          refine .formed hall ⟨e, he, hiff.trans ?_⟩
          rw [List.forall_mem_cons]
          exact ⟨fun hr => ⟨startTurn_goesOn ht, hr⟩, And.right⟩
      | joined liveset =>
        rw [hend] at hrest
        cases hrest
      | failed error => exact .failed

/-- When a pool in state INIT starts whole: the liveset formed has all configured hosts, and at the evaluation that
ended the wait they were all heard and had proposed the local host, exactly if in no turn a host of the copies has
left the heartbeat domain by the time everybody heard has proposed the local host. -/
theorem init_pool_is_whole_iff {first : StartRead} {rest : List StartRead} {now : Host}
    (h : ∀ error, testStartCriteria c sfStateInit excluded first rest now ≠ .failed error) :
    (∃ liveset e, testStartCriteria c sfStateInit excluded first rest now = .formed liveset ∧
      concludingEvaluation c sfStateInit excluded first rest = some e ∧
      (∀ i < c.hostnum, liveset.isOn i = true) ∧ AllReady c e) ↔
    ∀ r ∈ turnsRead c sfStateInit excluded first rest, ¬ r.LosesHost c := by
  have htest : testStartCriteria c sfStateInit excluded first rest now = startLoop c sfStateInit excluded first rest now :=
    if_pos (.inl rfl)
  have hinit : InitEnd c (turnsRead c sfStateInit excluded first rest) (concludingEvaluation c sfStateInit excluded first rest)
      (startLoop c sfStateInit excluded first rest now) := startLoop_init rest first
  rw [htest] at h ⊢
  cases hend : startLoop c sfStateInit excluded first rest now with
  | formed liveset =>
    rw [hend] at hinit
    cases hinit with
    | formed hall hev =>
      obtain ⟨e, he, hiff⟩ := hev
      constructor
      · rintro ⟨liveset', e', -, he', -, hready⟩
        rw [he] at he'
        cases he'
        exact hiff.1 hready
      · intro hkept
        exact ⟨liveset, e, rfl, he, hall, hiff.2 hkept⟩
  | joined liveset =>
    rw [hend] at hinit
    cases hinit
  | failed error => exact absurd hend (h error)

/-! ## Two hosts -/

def initPair : HaConfig := .pair

/-- Both hosts are in both domains; the other one is booting as well. -/
def initRead (boot : ComDataHb) : StartRead where
  host := { Host.initial 0 with
    hb := { ComDataHb.initial with hbdomain := HostMap.set (HostMap.set .empty 0) 1 }
    sf := { ComDataSf.initial 0 with sfAccess := true, sfdomain := HostMap.set (HostMap.set .empty 0) 1, starting := .full } }
  bootFirst := boot
  bootRest := []
  sfNow := .initial 0

/-- The other host is heard and proposes the local one. -/
def readyPair : ComDataHb :=
  { ComDataHb.initial with
    hbdomain := HostMap.set (HostMap.set .empty 0) 1
    raw := fun _ => { RawData.initial with proposedLiveset := HostMap.set .empty 0 } }

/-- Nobody but the local host is heard. -/
def leftPair : ComDataHb := { ComDataHb.initial with hbdomain := HostMap.set .empty 0 }

/-- The other host is heard and has not proposed anybody yet. -/
def bootingPair : ComDataHb := { readyPair with raw := fun _ => .initial }

/-- The other host starts late, and the wait goes on until it is ready. -/
theorem init_pool_is_whole_iff_ready : ∃ (first : StartRead) (rest : List StartRead) (liveset : HostMap) (e : ComDataHb),
    testStartCriteria initPair sfStateInit false first rest (Host.initial 0) = .formed liveset ∧
      (∀ i < 2, liveset.isOn i = true) ∧ AllReady initPair e := by
  let first : StartRead := initRead bootingPair
  let second : StartRead := { initRead bootingPair with bootRest := [readyPair] }
  have hform : testStartCriteria initPair sfStateInit false first [second] (Host.initial 0) =
      .formed (HostMap.set (HostMap.set .empty 0) 1) := by decide +kernel
  have hstart : ∀ error, testStartCriteria initPair sfStateInit false first [second] (Host.initial 0) ≠ .failed error := by
    rw [hform]
    exact fun _ => StartResult.noConfusion
  have hgo : startTurn initPair sfStateInit false first = none := by decide +kernel
  have hkept : ∀ r ∈ turnsRead initPair sfStateInit false first [second], ¬ r.LosesHost initPair := by
    have hheard : ∀ e ∈ [bootingPair, readyPair], ∀ i < 2, e.hbdomain.isOn i = true := by decide +kernel
    rw [turnsRead, hgo]
    dsimp only
    rw [turnsRead, List.forall_mem_cons, List.forall_mem_singleton]
    constructor
    · exact StartRead.keepsHosts fun e he i hi _ => hheard e (List.mem_cons.2 (.inl (List.mem_singleton.1 he))) i hi
    · exact StartRead.keepsHosts fun e he i hi _ => hheard e he i hi
  obtain ⟨liveset, e, hformed, -, hall, hready⟩ := (init_pool_is_whole_iff hstart).2 hkept
  exact ⟨first, [second], liveset, e, hformed, hall, hready⟩

/-- The other host leaves the heartbeat domain before the wait begins, and the pool starts all the same, with it in
the liveset. -/
theorem init_pool_starts_unheard : ∃ r, testStartCriteria initPair sfStateInit false r [] (Host.initial 0) =
      .formed (HostMap.set (HostMap.set .empty 0) 1) ∧
    concludingEvaluation initPair sfStateInit false r [] = some leftPair ∧ leftPair.hbdomain.isOn 1 = false := by
  refine ⟨initRead leftPair, by decide +kernel, rfl, by decide⟩

end Xha
