/-
Whether a host that leaves a domain is noticed: `start_fh` takes the edge from `last_hbdomain` and
`last_sfdomain`, but leaves `need_fh` alone while the fault handler is before FH3, and the fault handler
judges by the view it froze. First one call (`start_fh_detects_iff`), then runs (`failures_are_noticed`): a host that
was in a domain is still in it, or a call to come will see the edge, or the handler is to run (`FhInv`).
-/
import Xha.Lib.Transition
import Xha.Sm.Decision
import Xha.Sm.FaultHandler

namespace Xha

open Loop

/-! ## What `start_fh` sees -/

/-- The host is in `last`, and no longer in the domain. -/
def Dropped (domain last : HostMap) (i : Nat) : Prop := last.isOn i = true ∧ domain.isOn i = false

instance (domain last : HostMap) (i : Nat) : Decidable (Dropped domain last i) := by unfold Dropped; infer_instance

/-- The last host dropped from the domain is in the liveset. -/
def LastDroppedLive (n : Nat) (liveset domain last : HostMap) : Prop :=
  ∃ k < n, Dropped domain last k ∧ liveset.isOn k = true ∧ ∀ m < n, k < m → ¬ Dropped domain last m

instance (n : Nat) (liveset domain last : HostMap) : Decidable (LastDroppedLive n liveset domain last) := by
  unfold LastDroppedLive; infer_instance

theorem lastDroppedLive_succ (k : Nat) (liveset domain last : HostMap) :
    LastDroppedLive (k + 1) liveset domain last ↔
      if Dropped domain last k then liveset.isOn k = true else LastDroppedLive k liveset domain last := by
  split
  · rename_i hdrop
    constructor
    · rintro ⟨m, hm, _, hl, hafter⟩
      rcases Nat.lt_succ_iff_lt_or_eq.1 hm with hlt | rfl
      · exact absurd hdrop (hafter k (Nat.lt_succ_self k) hlt)
      · exact hl
    · exact fun hl => ⟨k, Nat.lt_succ_self k, hdrop, hl, fun m hm hkm => by omega⟩
  · rename_i hkeep
    constructor
    · rintro ⟨m, hm, hd, hl, hafter⟩
      rcases Nat.lt_succ_iff_lt_or_eq.1 hm with hlt | rfl
      · exact ⟨m, hlt, hd, hl, fun l hl hml => hafter l (Nat.lt_succ_of_lt hl) hml⟩
      · exact absurd hd hkeep
    · rintro ⟨m, hm, hd, hl, hafter⟩
      refine ⟨m, Nat.lt_succ_of_lt hm, hd, hl, fun l hl hml => ?_⟩
      rcases Nat.lt_succ_iff_lt_or_eq.1 hl with hlt | rfl
      · exact hafter l hlt hml
      · exact hkeep

/-- What the loop of `start_fh` has done to one domain after `k` hosts. -/
structure Tracked (liveset domain last : HostMap) (k : Nat) (s : HostMap × Bool) : Prop where
  track : ∀ i, s.1.isOn i = if i < k then domain.isOn i else last.isOn i
  degraded : s.2 = true ↔ LastDroppedLive k liveset domain last

/-- After `start_fh` the tracked domain is the domain, and the last host dropped has decided whether it
is degraded. -/
theorem trackDomain_spec {n : Nat} (hn : n ≤ maxHostNum) (liveset domain last : HostMap) :
    Tracked liveset domain last n (trackDomain n liveset domain last) := by
  refine forRange_inv (Tracked liveset domain last) ⟨fun i => by simp, by simp [LastDroppedLive]⟩ fun k s hk h => ?_
  have hkk : s.1.isOn k = last.isOn k := by rw [h.track]; simp
  have hkmax : k < maxHostNum := lt_of_lt_of_le hk hn
  have hlt : ∀ i, i ≠ k → (i < k + 1 ↔ i < k) := fun i hi => by omega
  unfold trackHost
  cases hd : domain.isOn k <;> cases hl : last.isOn k
  · -- neither in the domain nor tracked
    simp only [hkk, hl, Bool.false_and, Bool.false_eq_true, if_false]
    refine ⟨fun i => ?_, ?_⟩
    · by_cases hi : i = k
      · subst hi; simp [hkk, hl, hd]
      · rw [h.track i, if_congr (hlt i hi) rfl rfl]
    · rw [lastDroppedLive_succ, if_neg (by simp [Dropped, hl])]
      exact h.degraded
  · -- dropped
    simp only [hkk, hl, Bool.false_and, Bool.false_eq_true, if_false, Bool.not_false, Bool.and_self, if_true]
    refine ⟨fun i => ?_, ?_⟩
    · by_cases hi : i = k
      · subst hi; simp [hd]
      · rw [HostMap.isOn_reset, h.track i, if_congr (hlt i hi) rfl rfl]
        simp [Ne.symm hi]
    · rw [lastDroppedLive_succ, if_pos ⟨hl, hd⟩]
  · -- new in the domain
    simp only [hkk, hl, Bool.not_false, Bool.and_self, if_true, Bool.not_true, Bool.and_false, Bool.false_eq_true, if_false]
    refine ⟨fun i => ?_, ?_⟩
    · by_cases hi : i = k
      · subst hi; simp [hd, hkmax]
      · rw [HostMap.isOn_set, h.track i, if_congr (hlt i hi) rfl rfl]
        simp [Ne.symm hi]
    · rw [lastDroppedLive_succ, if_neg (by simp [Dropped, hl])]
      exact h.degraded
  · simp only [hkk, hl, Bool.not_true, Bool.and_false, Bool.false_eq_true, if_false]
    refine ⟨fun i => ?_, ?_⟩
    · by_cases hi : i = k
      · subst hi; simp [hkk, hl, hd]
      · rw [h.track i, if_congr (hlt i hi) rfl rfl]
    · rw [lastDroppedLive_succ, if_neg (by simp [Dropped, hd])]
      exact h.degraded

/-! ## What the updates of the domains report -/

/-- Whatever `update_hbdomain` changes it reports, the local host apart, which it only puts in. -/
structure HbReported (me : Nat) (domain : HostMap) (s : HbUpdate) : Prop where
  same : s.changed = false → ∀ j, j ≠ me → s.hbdomain.isOn j = domain.isOn j
  self : domain.isOn me = true → s.hbdomain.isOn me = true

theorem updateHbdomain_reported (c : HaConfig) (now : MtcClock) (h : Host) (sequence : Nat → Nat) :
    HbReported c.myIndex h.hb.hbdomain (updateHbdomain c now h sequence) := by
  have hme : c.myIndex < maxHostNum := lt_of_lt_of_le c.myIndex_lt c.hostnum_le
  refine forRange_inv (fun _ s => HbReported c.myIndex h.hb.hbdomain s) ⟨fun _ _ _ => rfl, fun h => h⟩ fun k s hk hs => ?_
  unfold updateHbHost
  dsimp only
  split_ifs with h1
  · subst h1
    refine ⟨fun hc j hj => ?_, fun _ => by simp [hme]⟩
    rw [HostMap.isOn_set, hs.same hc j hj]
    simp [Ne.symm hj]
  all_goals first
    | exact hs
    | exact ⟨fun hc => (by cases hc), fun hd => by simp [h1, hs.self hd]⟩
    | exact ⟨hs.same, hs.self⟩

/-- Whatever `update_sfdomain` changes it reports. -/
theorem updateSfdomain_reported (c : HaConfig) (now : MtcClock) (h : Host)
    (hc : (updateSfdomain c now h).changed = false) : (updateSfdomain c now h).sfdomain = h.sf.sfdomain :=
  congrArg ComDataSf.sfdomain (ComDataSf.updateSfdomain_unreported hc)

/-! ## What the test leaves of the domains -/

/-- The host when the rules have been applied and nobody has been removed yet. -/
def afterRules (c : HaConfig) (h : Host) : Host :=
  { h with
    sm := if !wonByRule1 c h && wonByRule2 c h then { h.sm with sr2 := true } else h.sm
    smvar := { h.smvar.maskStable c.hostnum with
      sr2 := if wonByRule1 c h then h.smvar.sr2 else wonByRule2 c h, fhSleepExtend := false } }

theorem testSurvivalRule_of_won {c : HaConfig} {h : Host} (hw : (testSurvivalRule c h).1 = true)
    (ha : h.smvar.fencing = .armed) : (testSurvivalRule c h).2 =
      ((afterRules c h).removeLost c.hostnum (frozenHbd c h) (frozenSfd c h)
        (if wonByRule1 c h then h.smvar.sr2 else wonByRule2 c h)).smWriterUnlock := by
  have hcond : ((wonByRule1 c h || wonByRule2 c h) && decide ((afterRules c h).smvar.fencing = .armed)) = true := by
    rw [← testSurvivalRule_winner, hw]
    show (true && decide (h.smvar.fencing = .armed)) = true
    rw [ha]; rfl
  exact congrArg Host.smWriterUnlock (if_pos hcond)

theorem testSurvivalRule_of_lost {c : HaConfig} {h : Host} (hw : (testSurvivalRule c h).1 = false)
    (ha : h.sm.fencing = .armed) :
    (testSurvivalRule c h).2 = (afterRules c h).smWriterUnlock ∧ (afterRules c h).sm.fencing = .armed := by
  constructor
  · have hcond : ((wonByRule1 c h || wonByRule2 c h) && decide ((afterRules c h).smvar.fencing = .armed)) ≠ true := by
      rw [← testSurvivalRule_winner, hw]; simp
    exact congrArg Host.smWriterUnlock (if_neg hcond)
  · unfold afterRules
    dsimp only
    split <;> exact ha

theorem Host.removeFromDomains_isOn (h : Host) (k i : Nat) :
    (h.removeFromDomains k).hb.hbdomain.isOn i = (h.hb.hbdomain.isOn i && decide (k ≠ i)) ∧
    (h.removeFromDomains k).sf.sfdomain.isOn i = (h.sf.sfdomain.isOn i && decide (k ≠ i)) := by
  have hoff : ∀ {b : HostMap}, b.isOn k = false → b.isOn i = (b.isOn i && decide (k ≠ i)) := fun {b} hb => by
    by_cases hki : k = i
    · subst hki; simp [hb]
    · simp [hki]
  unfold removeFromDomains
  dsimp only
  split <;> split <;> rename_i h1 h2 <;> dsimp only at h2 ⊢
  · exact ⟨HostMap.isOn_reset .., HostMap.isOn_reset ..⟩
  · exact ⟨HostMap.isOn_reset .., hoff (by simpa using h2)⟩
  · exact ⟨hoff (by simpa using h1), HostMap.isOn_reset ..⟩
  · exact ⟨hoff (by simpa using h1), hoff (by simpa using h2)⟩

/-- What the removal leaves: the kept hosts in the domains, and everything but the proposed liveset and
the request for a longer sleep. -/
structure Removed (n : Nat) (hbd sfd : HostMap) (sr2 : Bool) (h h' : Host) : Prop where
  hbdomain : ∀ i, h'.hb.hbdomain.isOn i = (h.hb.hbdomain.isOn i && (!decide (i < n) || !lostIn hbd sfd sr2 i))
  sfdomain : ∀ i, h'.sf.sfdomain.isOn i = (h.sf.sfdomain.isOn i && (!decide (i < n) || !lostIn hbd sfd sr2 i))
  sm : h'.sm = { h.sm with proposedLiveset := h'.sm.proposedLiveset }
  smvar : h'.smvar = { h.smvar with fhSleepExtend := h'.smvar.fhSleepExtend }

theorem Host.removeFromDomains_rest (h : Host) (index : Nat) :
    (h.removeFromDomains index).sm = { h.sm with proposedLiveset := h.sm.proposedLiveset.reset index } ∧
    (h.removeFromDomains index).smvar =
      { h.smvar with fhSleepExtend := (h.removeFromDomains index).smvar.fhSleepExtend } := by
  unfold removeFromDomains
  dsimp only
  split <;> split <;> exact ⟨rfl, rfl⟩

theorem Host.removeLost_spec (n : Nat) (hbd sfd : HostMap) (sr2 : Bool) (h : Host) :
    Removed n hbd sfd sr2 h (h.removeLost n hbd sfd sr2) := by
  refine forRange_inv (fun k t => Removed k hbd sfd sr2 h t) ⟨by simp, by simp, rfl, rfl⟩ fun k t hk ht => ?_
  have hlt : ∀ i, i ≠ k → decide (i < k + 1) = decide (i < k) := fun i hi => by
    rw [decide_eq_decide]; omega
  split
  · rename_i hlost
    obtain ⟨hsm, hsmvar⟩ := t.removeFromDomains_rest k
    refine ⟨fun i => ?_, fun i => ?_, ?_, ?_⟩
    · rw [(t.removeFromDomains_isOn k i).1, ht.hbdomain i]
      by_cases hi : i = k
      · subst hi; simp [hlost]
      · rw [hlt i hi]; simp [Ne.symm hi]
    · rw [(t.removeFromDomains_isOn k i).2, ht.sfdomain i]
      by_cases hi : i = k
      · subst hi; simp [hlost]
      · rw [hlt i hi]; simp [Ne.symm hi]
    · rw [hsm, ht.sm]
    · rw [hsmvar, ht.smvar]
  · rename_i hkept
    refine ⟨fun i => ?_, fun i => ?_, ht.sm, ht.smvar⟩
    · rw [ht.hbdomain i]
      by_cases hi : i = k
      · subst hi; simp [hkept]
      · rw [hlt i hi]
    · rw [ht.sfdomain i]
      by_cases hi : i = k
      · subst hi; simp [hkept]
      · rw [hlt i hi]

/-- What a host that won keeps: the tracked domains are the frozen ones, and who is still proposed was in
the frozen view and is where it was. -/
structure TestWon (n : Nat) (h h' : Host) : Prop where
  liveset : h'.sm.currentLiveset = h.sm.currentLiveset
  fencing : h'.sm.fencing = .armed ∧ h'.smvar.fencing = .armed
  synced : h'.smvar.sr2 = h'.sm.sr2
  sr2 : h.smvar.sr2 = true → h'.smvar.sr2 = true
  needFh : h'.smvar.needFh = h.smvar.needFh
  phase : h'.smvar.phase = h.smvar.phase
  lastHbdomain : ∀ j < n, h'.smvar.lastHbdomain.isOn j = h.smvar.stableHb.hbdomain.isOn j
  lastSfdomain : ∀ j < n, h'.smvar.lastSfdomain.isOn j = h.smvar.stableSf.sfdomain.isOn j
  kept : ∀ j < n, h.sm.currentLiveset.isOn j = true → h'.sm.proposedLiveset.isOn j = true →
    h.smvar.stableHb.hbdomain.isOn j = true ∧ (h'.smvar.sr2 = true ∨ h.smvar.stableSf.sfdomain.isOn j = true) ∧
    h'.hb.hbdomain.isOn j = h.hb.hbdomain.isOn j ∧ h'.sf.sfdomain.isOn j = h.sf.sfdomain.isOn j

theorem testSurvivalRule_spec {c : HaConfig} {h : Host} (hw : (testSurvivalRule c h).1 = true)
    (ha : h.sm.fencing = .armed ∧ h.smvar.fencing = .armed) (hs : h.smvar.sr2 = h.sm.sr2) :
    TestWon c.hostnum h (testSurvivalRule c h).2 := by
  have hproposed := testSurvivalRule_proposed c h
  have hsr2 := testSurvivalRule_sr2 c h
  have hwon : (wonByRule1 c h || wonByRule2 c h) = true := hw
  rw [testSurvivalRule_of_won hw ha.2] at hproposed hsr2 ⊢
  obtain ⟨hhb, hsf, hsm, hsmvar⟩ := (afterRules c h).removeLost_spec c.hostnum (frozenHbd c h) (frozenSfd c h)
    (if wonByRule1 c h then h.smvar.sr2 else wonByRule2 c h)
  generalize (afterRules c h).removeLost c.hostnum (frozenHbd c h) (frozenSfd c h)
    (if wonByRule1 c h then h.smvar.sr2 else wonByRule2 c h) = t at hhb hsf hsm hsmvar hproposed hsr2 ⊢
  have hrules : (afterRules c h).sm.currentLiveset = h.sm.currentLiveset ∧ (afterRules c h).sm.fencing = .armed := by
    unfold afterRules
    dsimp only
    split <;> exact ⟨rfl, ha.1⟩
  -- nothing is disarmed, so the callback only copies the SR2 flag
  have hunlock : t.smWriterUnlock = { t with smvar := { t.smvar with sr2 := t.sm.sr2 } } := by
    unfold Host.smWriterUnlock
    rw [if_neg (by rw [hsm]; dsimp only; rw [hrules.2]; decide)]
  rw [hunlock] at hproposed hsr2 ⊢
  refine ⟨?_, ⟨?_, ?_⟩, rfl, fun h2 => ?_, ?_, ?_, fun j hj => ?_, fun j hj => ?_, fun j hj hl hp => ?_⟩
  · dsimp only; rw [hsm]; exact hrules.1
  · dsimp only; rw [hsm]; exact hrules.2
  · dsimp only; rw [hsmvar]; exact ha.2
  · rw [hsr2, ← hs, h2]; rfl
  · dsimp only; rw [hsmvar]; rfl
  · dsimp only; rw [hsmvar]; rfl
  · dsimp only
    rw [hsmvar]
    show (h.smvar.stableHb.hbdomain.maskUnconfig c.hostnum).isOn j = _
    simp [hj]
  · dsimp only
    rw [hsmvar]
    show (h.smvar.stableSf.sfdomain.maskUnconfig c.hostnum).isOn j = _
    simp [hj]
  · have hin := hproposed j
    rw [hp, hwon, ha.2] at hin
    simp only [decide_true, Bool.and_self, Bool.not_true, Bool.false_or, hj] at hin
    have hin := (Bool.and_eq_true _ _ ▸ hin.symm).2
    rw [Bool.and_eq_true] at hin
    obtain ⟨hhbd, hsfd⟩ := hin
    have hkept :
        lostIn (frozenHbd c h) (frozenSfd c h) (if wonByRule1 c h then h.smvar.sr2 else wonByRule2 c h) j = false := by
      unfold lostIn
      rw [hhbd]
      cases hv : (if wonByRule1 c h then h.smvar.sr2 else wonByRule2 c h)
      · rw [hv, Bool.false_or] at hsfd; rw [hsfd]; rfl
      · rfl
    refine ⟨?_, ?_, ?_, ?_⟩
    · unfold frozenHbd at hhbd
      rw [HostMap.isOn_and, Bool.and_eq_true] at hhbd
      have h1 : (h.smvar.stableHb.hbdomain.maskUnconfig c.hostnum).isOn j = true := hhbd.1
      simpa [hj] using h1
    · rw [Bool.or_eq_true] at hsfd
      rcases hsfd with hv | hv
      · refine .inl ?_
        rw [hsr2]
        cases hr : wonByRule1 c h <;> rw [hr] at hv
        · simp only [Bool.false_eq_true, if_false] at hv; simp [hv]
        · simp only [if_true] at hv; rw [← hs, hv]; rfl
      · unfold frozenSfd at hv
        rw [HostMap.isOn_and, Bool.and_eq_true] at hv
        have h1 : (h.smvar.stableSf.sfdomain.maskUnconfig c.hostnum).isOn j = true := hv.1
        exact .inr (by simpa [hj] using h1)
    · dsimp only; rw [hhb j, hkept]; simp [afterRules]
    · dsimp only; rw [hsf j, hkept]; simp [afterRules]

/-- The merge only takes hosts off the local domains. -/
theorem mergeView_sub (c : HaConfig) (liveset myHbdomain mySfdomain : HostMap) (hb : ComDataHb) (sf : ComDataSf) {j : Nat}
    (hj : j < c.hostnum) :
    ((mergeView c liveset myHbdomain mySfdomain hb sf).1.hbdomain.isOn j = true → myHbdomain.isOn j = true) ∧
    ((mergeView c liveset myHbdomain mySfdomain hb sf).2.sfdomain.isOn j = true → mySfdomain.isOn j = true) := by
  constructor
  · intro h
    have hrec := (mergeView_record c liveset myHbdomain mySfdomain hb sf c.myIndex_lt).1
    have hmem : j ∈ ((mergeView c liveset myHbdomain mySfdomain hb sf).2.raw c.myIndex).hbdomain.hosts c.hostnum :=
      HostMap.mem_hosts.2 ⟨hj, h⟩
    rw [hrec] at hmem
    split at hmem
    · rename_i hme
      have hgraph := clique_subset_graph c liveset myHbdomain mySfdomain hb sf hme (Finset.mem_filter.1 hmem).1
      rw [mergeGraph_self, HostMap.mem_hosts, HostMap.isOn_and, Bool.and_eq_true] at hgraph
      exact hgraph.2.1
    · simp at hmem
  · intro h
    have hkept := keptSfdomain_isOn c liveset myHbdomain mySfdomain hb sf hj
    change (keptSfdomain c liveset myHbdomain mySfdomain hb sf).isOn j = true at h
    rw [h] at hkept
    exact (Bool.and_eq_true _ _ ▸ hkept.symm).1

/-! ## The hosts the handler counts on -/

/-- `smvar.phase` at each point: `wait_fh_event` has already set it to FHREADY when it returns. -/
def FhPc.smvarPhase : FhPc → SmPhase
  | .done .started => .fhready
  | pc => pc.phase

/-- The hosts of the heartbeat and the State-File domain the handler counts on: nobody before it freezes a
view, the view, who is still proposed once it has judged, and everybody once the liveset is updated. -/
def FhPc.view (h : Host) : FhPc → HostMap × HostMap
  | .freezing false myHbdomain mySfdomain => (myHbdomain, mySfdomain)
  | .done .fh2 | .wait1 .fh3 | .met1 .fh3 | .wait2 .fh3 | .body .fh3 =>
    (h.smvar.stableHb.hbdomain, h.smvar.stableSf.sfdomain)
  | .done .fh3 | .wait1 .fh4 | .met1 .fh4 | .wait2 .fh4 | .body .fh4 | .fencing =>
    (h.sm.proposedLiveset, h.sm.proposedLiveset)
  | .done .fh4 | .wait1 .started | .met1 .started | .wait2 .started | .body .started => (.full, .full)
  | _ => (.empty, .empty)

/-- The hosts of the liveset the handler does not remove at its next update. -/
def FhPc.keeps (h : Host) : FhPc → HostMap
  | .done .fh3 | .wait1 .fh4 | .met1 .fh4 | .wait2 .fh4 | .body .fh4 | .fencing => h.sm.proposedLiveset
  | .fenced => .empty
  | _ => .full

theorem FhPc.view_keeps (h : Host) (pc : FhPc) {j : Nat} (hj : j < maxHostNum)
    (hv : (pc.view h).1.isOn j = true ∨ (pc.view h).2.isOn j = true) : (pc.keeps h).isOn j = true := by
  have hfull : HostMap.full.isOn j = true := by simp [hj]
  have hproposed : h.sm.proposedLiveset.isOn j = true ∨ h.sm.proposedLiveset.isOn j = true →
      h.sm.proposedLiveset.isOn j = true := fun hv => hv.elim id id
  cases pc with
  | wait1 s => cases s <;> first | exact hfull | exact hproposed hv
  | met1 s => cases s <;> first | exact hfull | exact hproposed hv
  | wait2 s => cases s <;> first | exact hfull | exact hproposed hv
  | body s => cases s <;> first | exact hfull | exact hproposed hv
  | done s => cases s <;> first | exact hfull | exact hproposed hv
  | freezing consistent my mys => exact hfull
  | fencing => exact hproposed hv
  | fenced => exact hv.elim id id

/-- In STARTED the liveset is up to date: everybody counts. -/
theorem FhPc.view_started (h : Host) (pc : FhPc) (hp : pc.smvarPhase = .started) : pc.view h = (.full, .full) := by
  cases pc with
  | wait1 s => cases s <;> cases hp
  | met1 s => cases s <;> cases hp
  | wait2 s => cases s <;> first | rfl | cases hp
  | body s => cases s <;> first | rfl | cases hp
  | done s => cases s <;> cases hp
  | freezing _ _ _ => cases hp
  | fencing => cases hp
  | fenced => cases hp

/-- A call of `start_fh` is still to come. -/
def FhWorld.calling (w : FhWorld) : Prop := w.hbReceive ≠ .idle ∨ w.smWorker ≠ .idle

/-- The host is in the domain, or its failure will be seen by a call to come, or the handler will run. -/
def Held (domain last : HostMap) (w : FhWorld) (j : Nat) : Prop :=
  domain.isOn j = true ∨ (last.isOn j = true ∧ w.calling) ∨ w.host.smvar.needFh = true

structure FhInv (c : HaConfig) (w : FhWorld) : Prop where
  fencing : w.host.sm.fencing = .armed ∧ w.host.smvar.fencing = .armed
  synced : w.host.smvar.sr2 = w.host.sm.sr2
  phase : w.host.smvar.phase = w.pc.smvarPhase
  heldHb : ∀ j < c.hostnum, w.host.sm.currentLiveset.isOn j = true → (w.pc.view w.host).1.isOn j = true →
    Held w.host.hb.hbdomain w.host.smvar.lastHbdomain w j
  heldSf : ∀ j < c.hostnum, w.host.sm.currentLiveset.isOn j = true → (w.pc.view w.host).2.isOn j = true →
    w.host.smvar.sr2 = true ∨ Held w.host.sf.sfdomain w.host.smvar.lastSfdomain w j
  trackedHb : ∀ j < c.hostnum, w.host.sm.currentLiveset.isOn j = true → (w.pc.keeps w.host).isOn j = true →
    w.host.hb.hbdomain.isOn j = true → w.host.smvar.lastHbdomain.isOn j = true ∨ w.hbReceive ≠ .idle
  trackedSf : ∀ j < c.hostnum, w.host.sm.currentLiveset.isOn j = true → (w.pc.keeps w.host).isOn j = true →
    w.host.sf.sfdomain.isOn j = true →
    w.host.smvar.sr2 = true ∨ w.host.smvar.lastSfdomain.isOn j = true ∨ w.smWorker ≠ .idle
  selfIn : w.host.sm.currentLiveset.isOn c.myIndex = true → (w.pc.keeps w.host).isOn c.myIndex = true →
    w.host.hb.hbdomain.isOn c.myIndex = true

/-- What most steps leave alone. -/
structure SameDomains (n : Nat) (w w' : FhWorld) : Prop where
  liveset : ∀ j < n, w'.host.sm.currentLiveset.isOn j = true → w.host.sm.currentLiveset.isOn j = true
  hbdomain : ∀ j < n, w'.host.hb.hbdomain.isOn j = w.host.hb.hbdomain.isOn j
  sfdomain : ∀ j < n, w'.host.sf.sfdomain.isOn j = w.host.sf.sfdomain.isOn j
  lastHbdomain : w'.host.smvar.lastHbdomain = w.host.smvar.lastHbdomain
  lastSfdomain : w'.host.smvar.lastSfdomain = w.host.smvar.lastSfdomain
  sr2 : w.host.smvar.sr2 = true → w'.host.smvar.sr2 = true
  hbReceive : w.hbReceive ≠ .idle → w'.hbReceive ≠ .idle
  smWorker : w.smWorker ≠ .idle → w'.smWorker ≠ .idle

section

variable {c : HaConfig} {w w' : FhWorld}

theorem SameDomains.heldHb {n : Nat} (hs : SameDomains n w w')
    (hneed : w.host.smvar.needFh = true → w'.host.smvar.needFh = true)
    {j : Nat} (hj : j < n) (h : Held w.host.hb.hbdomain w.host.smvar.lastHbdomain w j) :
    Held w'.host.hb.hbdomain w'.host.smvar.lastHbdomain w' j := by
  rcases h with h | ⟨h, hcall⟩ | h
  · exact .inl (by rw [hs.hbdomain j hj]; exact h)
  · exact .inr (.inl ⟨by rw [hs.lastHbdomain]; exact h, hcall.imp hs.hbReceive hs.smWorker⟩)
  · exact .inr (.inr (hneed h))

theorem SameDomains.heldSf {n : Nat} (hs : SameDomains n w w')
    (hneed : w.host.smvar.needFh = true → w'.host.smvar.needFh = true)
    {j : Nat} (hj : j < n) (h : w.host.smvar.sr2 = true ∨ Held w.host.sf.sfdomain w.host.smvar.lastSfdomain w j) :
    w'.host.smvar.sr2 = true ∨ Held w'.host.sf.sfdomain w'.host.smvar.lastSfdomain w' j := by
  rcases h with h | h | ⟨h, hcall⟩ | h
  · exact .inl (hs.sr2 h)
  · exact .inr (.inl (by rw [hs.sfdomain j hj]; exact h))
  · exact .inr (.inr (.inl ⟨by rw [hs.lastSfdomain]; exact h, hcall.imp hs.hbReceive hs.smWorker⟩))
  · exact .inr (.inr (.inr (hneed h)))

/-- A step that leaves the domains alone keeps what is said of them, as long as the handler does not keep
more hosts than before. -/
theorem FhInv.keep (h : FhInv c w) (hs : SameDomains c.hostnum w w')
    (hfencing : w'.host.sm.fencing = .armed ∧ w'.host.smvar.fencing = .armed)
    (hsynced : w'.host.smvar.sr2 = w'.host.sm.sr2) (hphase : w'.host.smvar.phase = w'.pc.smvarPhase)
    (hkeeps : ∀ j < c.hostnum, w'.host.sm.currentLiveset.isOn j = true → (w'.pc.keeps w'.host).isOn j = true →
      (w.pc.keeps w.host).isOn j = true)
    (hheldHb : ∀ j < c.hostnum, w'.host.sm.currentLiveset.isOn j = true → (w'.pc.view w'.host).1.isOn j = true →
      Held w'.host.hb.hbdomain w'.host.smvar.lastHbdomain w' j)
    (hheldSf : ∀ j < c.hostnum, w'.host.sm.currentLiveset.isOn j = true → (w'.pc.view w'.host).2.isOn j = true →
      w'.host.smvar.sr2 = true ∨ Held w'.host.sf.sfdomain w'.host.smvar.lastSfdomain w' j) : FhInv c w' := by
  refine ⟨hfencing, hsynced, hphase, hheldHb, hheldSf, fun j hj hl hk hd => ?_, fun j hj hl hk hd => ?_, fun hl hk => ?_⟩
  · rw [hs.hbdomain j hj] at hd
    rw [hs.lastHbdomain]
    exact (h.trackedHb j hj (hs.liveset j hj hl) (hkeeps j hj hl hk) hd).imp_right hs.hbReceive
  · rw [hs.sfdomain j hj] at hd
    rw [hs.lastSfdomain]
    exact (h.trackedSf j hj (hs.liveset j hj hl) (hkeeps j hj hl hk) hd).imp hs.sr2 (.imp_right hs.smWorker)
  · rw [hs.hbdomain _ c.myIndex_lt]
    exact h.selfIn (hs.liveset _ c.myIndex_lt hl) (hkeeps _ c.myIndex_lt hl hk)

/-- The same for a step after which the handler counts on nobody new. -/
theorem FhInv.keepView (h : FhInv c w) (hs : SameDomains c.hostnum w w')
    (hfencing : w'.host.sm.fencing = .armed ∧ w'.host.smvar.fencing = .armed)
    (hsynced : w'.host.smvar.sr2 = w'.host.sm.sr2) (hphase : w'.host.smvar.phase = w'.pc.smvarPhase)
    (hneed : w.host.smvar.needFh = true → w'.host.smvar.needFh = true)
    (hkeeps : ∀ j < c.hostnum, w'.host.sm.currentLiveset.isOn j = true → (w'.pc.keeps w'.host).isOn j = true →
      (w.pc.keeps w.host).isOn j = true)
    (hview : ∀ j < c.hostnum, w'.host.sm.currentLiveset.isOn j = true →
      ((w'.pc.view w'.host).1.isOn j = true → (w.pc.view w.host).1.isOn j = true) ∧
      ((w'.pc.view w'.host).2.isOn j = true → (w.pc.view w.host).2.isOn j = true)) : FhInv c w' := by
  refine h.keep hs hfencing hsynced hphase hkeeps (fun j hj hl hv => ?_) fun j hj hl hv => ?_
  · exact hs.heldHb hneed hj (h.heldHb j hj (hs.liveset j hj hl) ((hview j hj hl).1 hv))
  · exact hs.heldSf hneed hj (h.heldSf j hj (hs.liveset j hj hl) ((hview j hj hl).2 hv))

/-! ## The steps of the sm thread -/

theorem Host.smWriterUnlock_armed {h : Host} (ha : h.sm.fencing = .armed) :
    h.smWriterUnlock = { h with smvar := { h.smvar with sr2 := h.sm.sr2 } } := by
  unfold smWriterUnlock
  rw [if_neg (by rw [ha]; decide)]

/-- `smvar` is a copy of what the object says already. -/
theorem Host.smWriterUnlock_synced {h : Host} (ha : h.sm.fencing = .armed) (hs : h.smvar.sr2 = h.sm.sr2) :
    h.smWriterUnlock = h := by
  rw [smWriterUnlock_armed ha, ← hs]

/-- The pass of the check masks the unconfigured hosts in place, and nothing else that counts here. -/
theorem checkConsistentView_domains (c : HaConfig) (sm : ComDataSm) (hb : ComDataHb) (sf : ComDataSf) {j : Nat}
    (hj : j < c.hostnum) :
    (checkConsistentView c sm hb sf).hb.hbdomain.isOn j = hb.hbdomain.isOn j ∧
    (checkConsistentView c sm hb sf).sf.sfdomain.isOn j = sf.sfdomain.isOn j := by
  obtain ⟨h1, h2⟩ := checkPeers_frame c sm.currentLiveset (hb.hbdomain.maskUnconfig c.hostnum &&& sm.currentLiveset)
    (sf.sfdomain.maskUnconfig c.hostnum &&& sm.currentLiveset) (List.range c.hostnum)
    { hb with hbdomain := hb.hbdomain.maskUnconfig c.hostnum } { sf with sfdomain := sf.sfdomain.maskUnconfig c.hostnum }
  unfold checkConsistentView
  dsimp only
  rw [h1, h2]
  exact ⟨by simp [hj], by simp [hj]⟩

theorem FhInv.set2 (h : FhInv c w) (s : FhStage) (hpc : w.pc = .met1 s) :
    FhInv c { w with host := w.host.setSmPhase s.phase2, pc := .wait2 s } := by
  have hset : w.host.setSmPhase s.phase2 =
      { w.host with sm := { w.host.sm with phase := s.phase2 }, smvar := { w.host.smvar with phase := s.phase2 } } :=
    Host.smWriterUnlock_synced h.fencing.1 h.synced
  rw [hset]
  refine h.keepView ⟨fun _ _ hl => hl, fun _ _ => rfl, fun _ _ => rfl, rfl, rfl, id, id, id⟩ h.fencing h.synced rfl id
    (fun j _ _ hk => ?_) fun j _ _ => ?_
  · rw [hpc]; cases s <;> exact hk
  · rw [hpc]; cases s <;> exact ⟨id, id⟩

theorem FhInv.set1 (h : FhInv c w) (s : FhStage) (hpc : w.pc = .done s) (joinBlock : Bool) :
    FhInv c { w with
      host := { w.host with smvar := { w.host.smvar with joinBlock := joinBlock } : Host }.setSmPhase s.next.phase1
      pc := .wait1 s.next } := by
  have hset : { w.host with smvar := { w.host.smvar with joinBlock := joinBlock } : Host }.setSmPhase s.next.phase1 =
      { w.host with sm := { w.host.sm with phase := s.next.phase1 }
                    smvar := { w.host.smvar with phase := s.next.phase1, joinBlock := joinBlock } } :=
    Host.smWriterUnlock_synced h.fencing.1 h.synced
  rw [hset]
  refine h.keepView ⟨fun _ _ hl => hl, fun _ _ => rfl, fun _ _ => rfl, rfl, rfl, id, id, id⟩ h.fencing h.synced rfl id
    (fun j _ _ hk => ?_) fun j _ _ => ?_
  · rw [hpc]; cases s <;> exact hk
  · rw [hpc]; cases s <;> exact ⟨id, id⟩

/-- A wait changes at most `join_block`. -/
theorem FhInv.met (h : FhInv c w) (s : FhStage) {pc' : FhPc}
    (hpc : w.pc = .wait1 s ∧ pc' = .met1 s ∨ w.pc = .wait2 s ∧ pc' = .body s) (joinBlock : Bool) :
    FhInv c { w with host := { w.host with smvar := { w.host.smvar with joinBlock := joinBlock } }, pc := pc' } := by
  have hphase := h.phase
  rcases hpc with ⟨hpc, rfl⟩ | ⟨hpc, rfl⟩ <;> rw [hpc] at hphase <;>
    refine h.keepView ⟨fun _ _ hl => hl, fun _ _ => rfl, fun _ _ => rfl, rfl, rfl, id, id, id⟩ h.fencing h.synced hphase id
      (fun j _ _ hk => ?_) fun j _ _ => ?_
  all_goals rw [hpc]
  · cases s <;> exact hk
  · cases s <;> exact ⟨id, id⟩
  · cases s <;> exact hk
  · cases s <;> exact ⟨id, id⟩

theorem FhInv.commit (h : FhInv c w) (hpc : w.pc = .body .fh1) :
    FhInv c { w with host := w.host.commitWeight, pc := .done .fh1 } := by
  have hcommit : w.host.commitWeight = { w.host with sm := { w.host.sm with commitedWeight := w.host.sm.weight } } :=
    Host.smWriterUnlock_synced h.fencing.1 h.synced
  have hphase := h.phase
  rw [hpc] at hphase
  rw [hcommit]
  refine h.keepView ⟨fun _ _ hl => hl, fun _ _ => rfl, fun _ _ => rfl, rfl, rfl, id, id, id⟩ h.fencing h.synced hphase id
    (fun j _ _ hk => ?_) fun j _ _ => ⟨fun hv => ?_, fun hv => ?_⟩
  · rw [hpc]; exact hk
  · exact absurd hv (by show HostMap.empty.isOn j ≠ true; simp)
  · exact absurd hv (by show HostMap.empty.isOn j ≠ true; simp)

/-- A pass of the check: if it is the last and timed out, the handler counts on the domains it took. -/
theorem FhInv.check (h : FhInv c w) (hpc : w.pc = .body .fh2) {pc' : FhPc}
    (hpc' : pc' = .body .fh2 ∨ pc' = .freezing (checkConsistentView c w.host.sm w.host.hb w.host.sf).consistent
      (checkConsistentView c w.host.sm w.host.hb w.host.sf).myHbdomain
      (checkConsistentView c w.host.sm w.host.hb w.host.sf).mySfdomain) :
    FhInv c { w with
      host := { w.host with
        hb := (checkConsistentView c w.host.sm w.host.hb w.host.sf).hb
        sf := (checkConsistentView c w.host.sm w.host.hb w.host.sf).sf }
      pc := pc' } := by
  have hdom := fun j (hj : j < c.hostnum) => checkConsistentView_domains c w.host.sm w.host.hb w.host.sf hj
  have hsame : SameDomains c.hostnum w { w with
      host := { w.host with
        hb := (checkConsistentView c w.host.sm w.host.hb w.host.sf).hb
        sf := (checkConsistentView c w.host.sm w.host.hb w.host.sf).sf }
      pc := pc' } :=
    ⟨fun _ _ hl => hl, fun j hj => (hdom j hj).1, fun j hj => (hdom j hj).2, rfl, rfl, id, id, id⟩
  have hphase := h.phase
  rw [hpc] at hphase
  have hkeeps : ∀ j, (pc'.keeps w.host).isOn j = true → (w.pc.keeps w.host).isOn j = true := fun j hk => by
    rw [hpc]
    rcases hpc' with rfl | rfl <;> exact hk
  have hempty : ∀ {j : Nat} {p : Prop}, HostMap.empty.isOn j = true → p := fun hv => absurd hv (by simp)
  refine h.keep hsame h.fencing h.synced ?_ (fun j _ _ hk => hkeeps j ?_) (fun j hj hl hv => .inl ?_)
    fun j hj hl hv => .inr (.inl ?_)
  · rcases hpc' with rfl | rfl <;> exact hphase
  · rcases hpc' with rfl | rfl <;> exact hk
  · rw [hsame.hbdomain j hj]
    rcases hpc' with rfl | rfl
    · exact hempty hv
    · cases hc : (checkConsistentView c w.host.sm w.host.hb w.host.sf).consistent <;> rw [hc] at hv
      · change (w.host.hb.hbdomain.maskUnconfig c.hostnum &&& w.host.sm.currentLiveset).isOn j = true at hv
        simp [hj] at hv
        exact hv.1
      · exact hempty hv
  · rw [hsame.sfdomain j hj]
    rcases hpc' with rfl | rfl
    · exact hempty hv
    · cases hc : (checkConsistentView c w.host.sm w.host.hb w.host.sf).consistent <;> rw [hc] at hv
      · change (w.host.sf.sfdomain.maskUnconfig c.hostnum &&& w.host.sm.currentLiveset).isOn j = true at hv
        simp [hj] at hv
        exact hv.1
      · exact hempty hv

/-- The frozen view is in the domains as they are, or in those of the check. -/
theorem FhInv.freeze (h : FhInv c w) {consistent : Bool} {myHbdomain mySfdomain : HostMap}
    (hpc : w.pc = .freezing consistent myHbdomain mySfdomain) :
    FhInv c { w with
      host := { w.host with smvar := { w.host.smvar with
        stableHb := (freezeView c w.host.sm consistent myHbdomain mySfdomain w.host.hb w.host.sf).1
        stableSf := (freezeView c w.host.sm consistent myHbdomain mySfdomain w.host.hb w.host.sf).2 } }
      pc := .done .fh2 } := by
  have hsame : SameDomains c.hostnum w { w with
      host := { w.host with smvar := { w.host.smvar with
        stableHb := (freezeView c w.host.sm consistent myHbdomain mySfdomain w.host.hb w.host.sf).1
        stableSf := (freezeView c w.host.sm consistent myHbdomain mySfdomain w.host.hb w.host.sf).2 } }
      pc := .done .fh2 } := ⟨fun _ _ hl => hl, fun _ _ => rfl, fun _ _ => rfl, rfl, rfl, id, id, id⟩
  have hphase := h.phase
  rw [hpc] at hphase
  refine h.keep hsame h.fencing h.synced hphase (fun j _ _ hk => ?_) (fun j hj hl hv => ?_) fun j hj hl hv => ?_
  · rw [hpc]; exact hk
  · cases consistent with
    | false =>
      refine hsame.heldHb id hj (h.heldHb j hj hl ?_)
      rw [hpc]
      exact (mergeView_sub c w.host.sm.currentLiveset myHbdomain mySfdomain w.host.hb w.host.sf hj).1 hv
    | true => exact .inl hv
  · cases consistent with
    | false =>
      refine hsame.heldSf id hj (h.heldSf j hj hl ?_)
      rw [hpc]
      exact (mergeView_sub c w.host.sm.currentLiveset myHbdomain mySfdomain w.host.hb w.host.sf hj).2 hv
    | true => exact .inr (.inl hv)

/-- The test re-arms the tracking with the frozen view, and keeps only hosts of it. -/
theorem FhInv.won (h : FhInv c w) (hpc : w.pc = .body .fh3) (hw : (testSurvivalRule c w.host).1 = true) :
    FhInv c { w with host := (testSurvivalRule c w.host).2, pc := .done .fh3 } := by
  have hwon := testSurvivalRule_spec hw h.fencing h.synced
  have hphase := h.phase
  rw [hpc] at hphase
  generalize (testSurvivalRule c w.host).2 = h' at hwon ⊢
  have hview : ∀ j < c.hostnum, h'.sm.currentLiveset.isOn j = true → h'.sm.proposedLiveset.isOn j = true →
      w.host.sm.currentLiveset.isOn j = true ∧ w.host.smvar.stableHb.hbdomain.isOn j = true ∧
        (h'.smvar.sr2 = true ∨ w.host.smvar.stableSf.sfdomain.isOn j = true) ∧
        h'.hb.hbdomain.isOn j = w.host.hb.hbdomain.isOn j ∧ h'.sf.sfdomain.isOn j = w.host.sf.sfdomain.isOn j := by
    intro j hj hl hp
    rw [hwon.liveset] at hl
    exact ⟨hl, hwon.kept j hj hl hp⟩
  refine ⟨hwon.fencing, hwon.synced, hwon.phase.trans hphase, fun j hj hl hv => ?_, fun j hj hl hv => ?_,
    fun j hj hl hk _ => .inl ?_, fun j hj hl hk _ => ?_, fun hl hk => ?_⟩
  · obtain ⟨hlive, hst, _, hd, _⟩ := hview j hj hl hv
    rcases h.heldHb j hj hlive (by rw [hpc]; exact hst) with hin | ⟨_, hcall⟩ | hneed
    · exact .inl (by rw [hd]; exact hin)
    · exact .inr (.inl ⟨by rw [hwon.lastHbdomain j hj]; exact hst, hcall⟩)
    · exact .inr (.inr (by rw [hwon.needFh]; exact hneed))
  · obtain ⟨hlive, _, hst, _, hd⟩ := hview j hj hl hv
    rcases hst with hsr2 | hst
    · exact .inl hsr2
    rcases h.heldSf j hj hlive (by rw [hpc]; exact hst) with hsr2 | hin | ⟨_, hcall⟩ | hneed
    · exact .inl (hwon.sr2 hsr2)
    · exact .inr (.inl (by rw [hd]; exact hin))
    · exact .inr (.inr (.inl ⟨by rw [hwon.lastSfdomain j hj]; exact hst, hcall⟩))
    · exact .inr (.inr (.inr (by rw [hwon.needFh]; exact hneed)))
  · obtain ⟨_, hst, _, _, _⟩ := hview j hj hl hk
    rw [hwon.lastHbdomain j hj]
    exact hst
  · obtain ⟨_, _, hst, _, _⟩ := hview j hj hl hk
    rw [hwon.lastSfdomain j hj]
    exact hst.imp_right .inl
  · obtain ⟨hlive, _, _, hd, _⟩ := hview c.myIndex c.myIndex_lt hl hk
    rw [hd]
    refine h.selfIn hlive ?_
    rw [hpc]
    show HostMap.full.isOn c.myIndex = true
    simpa using lt_of_lt_of_le c.myIndex_lt c.hostnum_le

/-- A host that lost counts on nobody. -/
theorem FhInv.lost (h : FhInv c w) (hpc : w.pc = .body .fh3) (hw : (testSurvivalRule c w.host).1 = false) :
    FhInv c { w with host := (testSurvivalRule c w.host).2, pc := .fenced } := by
  obtain ⟨hrules, harmed⟩ := testSurvivalRule_of_lost hw h.fencing.1
  have hphase := h.phase
  rw [hpc] at hphase
  rw [hrules, Host.smWriterUnlock_armed harmed]
  have hempty : ∀ {j : Nat} {p : Prop}, HostMap.empty.isOn j = true → p := fun hv => absurd hv (by simp)
  exact ⟨⟨harmed, h.fencing.2⟩, rfl, hphase, fun j _ _ hv => hempty hv, fun j _ _ hv => hempty hv,
    fun j _ _ hv _ => hempty hv, fun j _ _ hv _ => hempty hv, fun _ hv => hempty hv⟩

/-- Nobody is to be removed: all of the liveset is still proposed. -/
theorem FhInv.undegraded (h : FhInv c w) (hpc : w.pc = .body .fh4)
    (hsub : w.host.sm.currentLiveset.subsetEqual w.host.sm.proposedLiveset = true) :
    FhInv c { w with pc := .done .fh4 } := by
  have hproposed := HostMap.subsetEqual_iff.1 hsub
  have hphase := h.phase
  rw [hpc] at hphase
  refine h.keepView ⟨fun _ _ hl => hl, fun _ _ => rfl, fun _ _ => rfl, rfl, rfl, id, id, id⟩ h.fencing h.synced hphase id
    (fun j _ hl _ => ?_) fun j _ hl => ⟨fun _ => ?_, fun _ => ?_⟩
  all_goals rw [hpc]; exact hproposed j hl

theorem FhInv.degrading (h : FhInv c w) (hpc : w.pc = .body .fh4) (fenceRequest : Bool) :
    FhInv c { w with
      host := { w.host with hb := { w.host.hb with ctl := { w.host.hb.ctl with fenceRequest := fenceRequest } } }
      pc := .fencing } := by
  have hphase := h.phase
  rw [hpc] at hphase
  refine h.keepView ⟨fun _ _ hl => hl, fun _ _ => rfl, fun _ _ => rfl, rfl, rfl, id, id, id⟩ h.fencing h.synced hphase id
    (fun j _ _ hk => ?_) fun j _ _ => ?_
  · rw [hpc]; exact hk
  · rw [hpc]; exact ⟨id, id⟩

/-- The liveset becomes what is still proposed of it. -/
theorem FhInv.update (h : FhInv c w) (hpc : w.pc = .fencing) :
    FhInv c { w with
      host := { w.host with
        sm := { w.host.sm with currentLiveset := w.host.sm.currentLiveset &&& w.host.sm.proposedLiveset }
        hb := { w.host.hb with ctl := { w.host.hb.ctl with fenceRequest := false } } }
      pc := .done .fh4 } := by
  have hphase := h.phase
  rw [hpc] at hphase
  have hin : ∀ j, (w.host.sm.currentLiveset &&& w.host.sm.proposedLiveset).isOn j = true →
      w.host.sm.currentLiveset.isOn j = true ∧ w.host.sm.proposedLiveset.isOn j = true := fun j hl => by
    simpa using hl
  refine h.keepView ⟨fun j _ hl => (hin j hl).1, fun _ _ => rfl, fun _ _ => rfl, rfl, rfl, id, id, id⟩ h.fencing h.synced
    hphase id (fun j _ hl _ => ?_) fun j _ hl => ⟨fun _ => ?_, fun _ => ?_⟩
  all_goals rw [hpc]; exact (hin j hl).2

/-- `wait_fh_event` starts a round over: the handler counts on nobody until it has a view. -/
theorem FhInv.event (h : FhInv c w) (hpc : w.pc = .body .started) :
    FhInv c { w with
      host := { w.host with smvar := { w.host.smvar with needFh := false, phase := .fhready } }
      pc := .done .started } := by
  have hempty : ∀ {j : Nat} {p : Prop}, HostMap.empty.isOn j = true → p := fun hv => absurd hv (by simp)
  refine h.keep ⟨fun _ _ hl => hl, fun _ _ => rfl, fun _ _ => rfl, rfl, rfl, id, id, id⟩ h.fencing h.synced rfl
    (fun j _ _ hk => ?_) (fun j _ _ hv => hempty hv) fun j _ _ hv => hempty hv
  rw [hpc]
  exact hk

theorem FhInv.move (h : FhInv c w) {timeout : Bool} {h' : Host} {pc' : FhPc}
    (hm : FhMove c timeout w.host w.pc h' pc') : FhInv c { w with host := h', pc := pc' } := by
  generalize hpc : w.pc = pc at hm
  cases hm with
  | met1 s => exact h.met s (.inl ⟨hpc, rfl⟩) w.host.smvar.joinBlock
  | set2 s => exact h.set2 s hpc
  | met2 s => exact h.met s (.inr ⟨hpc, rfl⟩) w.host.smvar.joinBlock
  | allowJoins => exact h.met .started (.inr ⟨hpc, rfl⟩) false
  | commit => exact h.commit hpc
  | again => exact h.check hpc (.inl rfl)
  | leave => exact h.check hpc (.inr rfl)
  | freeze => exact h.freeze hpc
  | won hw => exact h.won hpc hw
  | lost hw => exact h.lost hpc hw
  | notFenced hw hoff =>
    obtain ⟨hrules, harmed⟩ := testSurvivalRule_of_lost hw h.fencing.1
    rw [hrules, Host.smWriterUnlock_armed harmed] at hoff
    exact absurd h.fencing.2 hoff
  | degrading => exact h.degrading hpc _
  | undegraded hsub => exact h.undegraded hpc hsub
  | update =>
    have hunlock : { w.host with sm := { w.host.sm with
          currentLiveset := w.host.sm.currentLiveset &&& w.host.sm.proposedLiveset } : Host }.smWriterUnlock =
        { w.host with sm := { w.host.sm with currentLiveset := w.host.sm.currentLiveset &&& w.host.sm.proposedLiveset } } :=
      Host.smWriterUnlock_synced h.fencing.1 h.synced
    rw [hunlock]
    exact h.update hpc
  | noUpdate hoff => exact absurd h.fencing.2 hoff
  | event => exact h.event hpc
  | blockJoins => exact h.set1 .started hpc true
  | set1 s => exact h.set1 s hpc w.host.smvar.joinBlock

/-! ## The steps of the other threads -/

/-- The domains lose nobody without the loss being tracked and the call of `start_fh` being due. -/
theorem fhInv_updateHbdomain (h : FhInv c w) (hidle : w.hbReceive = .idle) (now : MtcClock) :
    FhInv c { w with
      host := { w.host with hb := { w.host.hb with hbdomain := (updateHbdomain c now w.host w.hbSequence).hbdomain } }
      hbSequence := (updateHbdomain c now w.host w.hbSequence).sequence
      hbReceive := if (updateHbdomain c now w.host w.hbSequence).changed then .startFh false else .idle } := by
  obtain ⟨hkeep, hself⟩ := updateHbdomain_reported c now w.host w.hbSequence
  generalize updateHbdomain c now w.host w.hbSequence = s at hkeep hself ⊢
  have hkeeps : ∀ j < c.hostnum, (w.pc.view w.host).1.isOn j = true → (w.pc.keeps w.host).isOn j = true := fun j hj hv =>
    w.pc.view_keeps w.host (lt_of_lt_of_le hj c.hostnum_le) (.inl hv)
  have htracked : ∀ j < c.hostnum, w.host.sm.currentLiveset.isOn j = true → (w.pc.keeps w.host).isOn j = true →
      w.host.hb.hbdomain.isOn j = true → w.host.smvar.lastHbdomain.isOn j = true := fun j hj hl hk hd =>
    (h.trackedHb j hj hl hk hd).resolve_right fun hne => hne hidle
  cases hc : s.changed with
  | false =>
    -- the handler counts on the local host only if it is in its own domain
    have hsame : ∀ j, w.host.sm.currentLiveset.isOn j = true → (w.pc.keeps w.host).isOn j = true →
        s.hbdomain.isOn j = w.host.hb.hbdomain.isOn j := fun j hl hk => by
      by_cases hj : j = c.myIndex
      · subst hj; rw [hself (h.selfIn hl hk), h.selfIn hl hk]
      · exact hkeep hc j hj
    have hcall : ∀ {p : Prop}, w.hbReceive ≠ .idle → p := fun hne => absurd hidle hne
    refine ⟨h.fencing, h.synced, h.phase, fun j hj hl hv => ?_, fun j hj hl hv => ?_, fun j hj hl hk hd => .inl ?_,
      h.trackedSf, fun hl hk => hself (h.selfIn hl hk)⟩
    · rcases h.heldHb j hj hl hv with hd | ⟨hlast, hcalling⟩ | hneed
      · exact .inl (by rw [hsame j hl (hkeeps j hj hv)]; exact hd)
      · exact .inr (.inl ⟨hlast, .inr (hcalling.elim hcall id)⟩)
      · exact .inr (.inr hneed)
    · rcases h.heldSf j hj hl hv with hsr2 | hd | ⟨hlast, hcalling⟩ | hneed
      · exact .inl hsr2
      · exact .inr (.inl hd)
      · exact .inr (.inr (.inl ⟨hlast, .inr (hcalling.elim hcall id)⟩))
      · exact .inr (.inr (.inr hneed))
    · rw [hsame j hl hk] at hd
      exact htracked j hj hl hk hd
  | true =>
    refine ⟨h.fencing, h.synced, h.phase, fun j hj hl hv => ?_, fun j hj hl hv => ?_, fun j hj hl hk hd => .inr nofun,
      h.trackedSf, fun hl hk => hself (h.selfIn hl hk)⟩
    · rcases h.heldHb j hj hl hv with hd | ⟨hlast, _⟩ | hneed
      · exact .inr (.inl ⟨htracked j hj hl (hkeeps j hj hv) hd, .inl nofun⟩)
      · exact .inr (.inl ⟨hlast, .inl nofun⟩)
      · exact .inr (.inr hneed)
    · rcases h.heldSf j hj hl hv with hsr2 | hd | ⟨hlast, _⟩ | hneed
      · exact .inl hsr2
      · exact .inr (.inl hd)
      · exact .inr (.inr (.inl ⟨hlast, .inl nofun⟩))
      · exact .inr (.inr (.inr hneed))

theorem fhInv_updateSfdomain (h : FhInv c w) (hidle : w.smWorker = .idle) (now : MtcClock) :
    FhInv c { w with
      host := { w.host with sf := { w.host.sf with
        sfdomain := (updateSfdomain c now w.host).sfdomain, sfAccess := (updateSfdomain c now w.host).sfAccess } }
      smWorker := if (updateSfdomain c now w.host).changed then .startFh false else .idle } := by
  have hkeep := updateSfdomain_reported c now w.host
  generalize updateSfdomain c now w.host = s at hkeep ⊢
  cases hc : s.changed with
  | false =>
    refine h.keepView ⟨fun _ _ hl => hl, fun _ _ => rfl, fun j _ => ?_, rfl, rfl, id, id, fun hne => absurd hidle hne⟩
      h.fencing h.synced h.phase id (fun j _ _ hk => hk) fun j _ _ => ⟨id, id⟩
    show s.sfdomain.isOn j = _
    rw [hkeep hc]
  | true =>
    refine ⟨h.fencing, h.synced, h.phase, fun j hj hl hv => ?_, fun j hj hl hv => ?_, h.trackedHb,
      fun j hj hl hk hd => .inr (.inr nofun), h.selfIn⟩
    · rcases h.heldHb j hj hl hv with hd | ⟨hlast, _⟩ | hneed
      · exact .inl hd
      · exact .inr (.inl ⟨hlast, .inr nofun⟩)
      · exact .inr (.inr hneed)
    · rcases h.heldSf j hj hl hv with hsr2 | hd | ⟨hlast, _⟩ | hneed
      · exact .inl hsr2
      · have hk := w.pc.view_keeps w.host (lt_of_lt_of_le hj c.hostnum_le) (.inr hv)
        rcases h.trackedSf j hj hl hk hd with hsr2 | hlast | hne
        · exact .inl hsr2
        · exact .inr (.inr (.inl ⟨hlast, .inr nofun⟩))
        · exact absurd hidle hne
      · exact .inr (.inr (.inl ⟨hlast, .inr nofun⟩))
      · exact .inr (.inr (.inr hneed))

/-- The call of `start_fh` sets `need_fh`. -/
def Signals (n : Nat) (force : Bool) (h : Host) : Prop :=
  h.smvar.phase.fhUnderway = false ∧
    (LastDroppedLive n h.sm.currentLiveset h.hb.hbdomain h.smvar.lastHbdomain ∨
      (h.smvar.sr2 = false ∧ LastDroppedLive n h.sm.currentLiveset h.sf.sfdomain h.smvar.lastSfdomain) ∨
      (force = true ∧ h.smvar.phase = .started))

instance (n : Nat) (force : Bool) (h : Host) : Decidable (Signals n force h) := by unfold Signals; infer_instance

theorem startFh_needFh {c : HaConfig} (force : Bool) (h : Host) :
    (startFh c.hostnum force h).smvar.needFh = true ↔ h.smvar.needFh = true ∨ Signals c.hostnum force h := by
  have hhb := (trackDomain_spec c.hostnum_le h.sm.currentLiveset h.hb.hbdomain h.smvar.lastHbdomain).degraded
  have hsf := (trackDomain_spec c.hostnum_le h.sm.currentLiveset h.sf.sfdomain h.smvar.lastSfdomain).degraded
  unfold startFh Signals
  dsimp only
  rw [← hhb, ← hsf]
  simp only [Bool.or_eq_true, Bool.and_eq_true, Bool.not_eq_true', decide_eq_true_eq]
  tauto

/-- A call of `start_fh` tracks the hosts of the domains. -/
theorem startFh_tracked {c : HaConfig} (force : Bool) (h : Host) {j : Nat} (hj : j < c.hostnum) :
    (startFh c.hostnum force h).smvar.lastHbdomain.isOn j = h.hb.hbdomain.isOn j ∧
    (startFh c.hostnum force h).smvar.lastSfdomain.isOn j = h.sf.sfdomain.isOn j := by
  have hhb := (trackDomain_spec c.hostnum_le h.sm.currentLiveset h.hb.hbdomain h.smvar.lastHbdomain).track
  have hsf := (trackDomain_spec c.hostnum_le h.sm.currentLiveset h.sf.sfdomain h.smvar.lastSfdomain).track
  constructor
  · show (trackDomain _ _ _ _).1.isOn j = _
    rw [hhb j, if_pos hj]
  · show (trackDomain _ _ _ _).1.isOn j = _
    rw [hsf j, if_pos hj]

/-- A host of the liveset that the handler counts on has dropped from a domain since the last call. -/
def LossDue (n : Nat) (w : FhWorld) : Prop :=
  (∃ j < n, w.host.sm.currentLiveset.isOn j = true ∧ (w.pc.view w.host).1.isOn j = true ∧
    Dropped w.host.hb.hbdomain w.host.smvar.lastHbdomain j) ∨
  (w.host.smvar.sr2 = false ∧ ∃ j < n, w.host.sm.currentLiveset.isOn j = true ∧ (w.pc.view w.host).2.isOn j = true ∧
    Dropped w.host.sf.sfdomain w.host.smvar.lastSfdomain j)

instance (n : Nat) (w : FhWorld) : Decidable (LossDue n w) := by unfold LossDue; infer_instance

theorem fhInv_startFh (h : FhInv c w) (force : Bool)
    (hheard : w.host.smvar.needFh = false → LossDue c.hostnum w → Signals c.hostnum force w.host)
    (hbReceive smWorker : CallPc) :
    FhInv c { w with host := startFh c.hostnum force w.host, hbReceive := hbReceive, smWorker := smWorker } := by
  have htracked := fun {j : Nat} (hj : j < c.hostnum) => startFh_tracked force w.host hj
  have hneed := startFh_needFh (c := c) force w.host
  -- a loss that is due is heard now, or has been heard before
  have hdue : LossDue c.hostnum w → (startFh c.hostnum force w.host).smvar.needFh = true := fun hd => by
    rw [hneed]
    cases hn : w.host.smvar.needFh
    · exact .inr (hheard hn hd)
    · exact .inl rfl
  refine ⟨h.fencing, h.synced, h.phase, fun j hj hl hv => ?_, fun j hj hl hv => ?_, fun j hj hl hk hd => .inl ?_,
    fun j hj hl hk hd => .inr (.inl ?_), h.selfIn⟩
  · rcases h.heldHb j hj hl hv with hd | ⟨hlast, _⟩ | hn
    · exact .inl hd
    · cases hd : w.host.hb.hbdomain.isOn j
      · exact .inr (.inr (hdue (.inl ⟨j, hj, hl, hv, hlast, hd⟩)))
      · exact .inl hd
    · exact .inr (.inr (hneed.2 (.inl hn)))
  · cases hsr2 : w.host.smvar.sr2
    · refine .inr ?_
      rcases (h.heldSf j hj hl hv).resolve_left (by simp [hsr2]) with hd | ⟨hlast, _⟩ | hn
      · exact .inl hd
      · cases hd : w.host.sf.sfdomain.isOn j
        · exact .inr (.inr (hdue (.inr ⟨hsr2, j, hj, hl, hv, hlast, hd⟩)))
        · exact .inl hd
      · exact .inr (.inr (hneed.2 (.inl hn)))
    · exact .inl hsr2
  · exact (htracked hj).1.trans hd
  · exact (htracked hj).2.trans hd

/-- Packets only put the SR2 flag up. -/
theorem fhInv_updateHbData (h : FhInv c w) (hidle : w.hbReceive = .idle) (now : MtcClock) (pkt : HbPacket)
    (hbReceive : CallPc) (hbSequence : Nat → Nat) :
    FhInv c { w with host := w.host.updateHbData now pkt, hbReceive := hbReceive, hbSequence := hbSequence } := by
  have hunlock : w.host.updateHbData now pkt = _ := Host.smWriterUnlock_armed h.fencing.1
  rw [hunlock]
  refine h.keepView ⟨fun _ _ hl => hl, fun _ _ => rfl, fun _ _ => rfl, rfl, rfl, fun hsr2 => ?_, fun hne => absurd hidle hne,
    id⟩ h.fencing rfl h.phase id (fun _ _ _ hk => hk) fun _ _ _ => ⟨id, id⟩
  rw [h.synced] at hsr2
  show (w.host.sm.sr2 || pkt.sr2) = true
  rw [hsr2]
  rfl

/-! ## Runs -/

/-- What a call of `start_fh` has to meet: a loss that is due is signalled, unless `need_fh` is set. -/
def HeardInTime (c : HaConfig) (w : FhWorld) : FhAction → Prop
  | .hbStartFh => w.host.smvar.needFh = false → LossDue c.hostnum w → Signals c.hostnum w.hbReceive.forced w.host
  | .sfStartFh => w.host.smvar.needFh = false → LossDue c.hostnum w → Signals c.hostnum w.smWorker.forced w.host
  | _ => True

/-- The host is in STARTED, everybody of its liveset is in the domains and tracked there, as a call of `start_fh` leaves
it (`startFh_tracked`). -/
structure Quiet (c : HaConfig) (w : FhWorld) : Prop where
  phase : w.host.smvar.phase = .started ∧ w.pc.smvarPhase = .started
  fencing : w.host.sm.fencing = .armed ∧ w.host.smvar.fencing = .armed
  synced : w.host.smvar.sr2 = w.host.sm.sr2
  liveset : ∀ j < c.hostnum, w.host.sm.currentLiveset.isOn j = true →
    w.host.hb.hbdomain.isOn j = true ∧ w.host.sf.sfdomain.isOn j = true
  tracked : ∀ j < c.hostnum, w.host.sm.currentLiveset.isOn j = true →
    w.host.smvar.lastHbdomain.isOn j = true ∧ w.host.smvar.lastSfdomain.isOn j = true

/-- The runs of one host. -/
def fhHost (c : HaConfig) : Transition.Machine FhWorld FhAction where
  init := Quiet c
  next := fhAct c

theorem Quiet.fhInv (h : Quiet c w) : FhInv c w where
  fencing := h.fencing
  synced := h.synced
  phase := h.phase.1.trans h.phase.2.symm
  heldHb j hj hl _ := .inl (h.liveset j hj hl).1
  heldSf j hj hl _ := .inr (.inl (h.liveset j hj hl).2)
  trackedHb j hj hl _ _ := .inl (h.tracked j hj hl).1
  trackedSf j hj hl _ _ := .inr (.inl (h.tracked j hj hl).2)
  selfIn hl _ := (h.liveset c.myIndex c.myIndex_lt hl).1

/-- Every step keeps the invariant, and a call of `start_fh` does when it hears what is due. -/
theorem fhAct_fhInv {a : FhAction} (h : FhInv c w) (ha : HeardInTime c w a) (hn : fhAct c w a = some w') :
    FhInv c w' := by
  cases fhAct_step hn with
  | fh hm => exact h.move hm
  | updateHbdomain now hidle => exact fhInv_updateHbdomain h hidle now
  | hbStartFh hcall =>
    simp only [HeardInTime, hcall] at ha
    exact fhInv_startFh h _ ha .idle w.smWorker
  | updateSfdomain now hidle => exact fhInv_updateSfdomain h hidle now
  | sfStartFh hcall =>
    simp only [HeardInTime, hcall] at ha
    exact fhInv_startFh h _ ha w.hbReceive .idle
  | receiveOld => exact h
  | receive now hidle => exact fhInv_updateHbData h hidle now _ _ _
  | receiveStarting | sendHb | readRow | writeRow | objects =>
    exact h.keepView ⟨fun _ _ hl => hl, fun _ _ => rfl, fun _ _ => rfl, rfl, rfl, id, id, id⟩ h.fencing h.synced h.phase id
      (fun _ _ _ hk => hk) fun _ _ _ => ⟨id, id⟩

/-- In STARTED with nothing pending the whole liveset is in the domains. -/
theorem FhInv.domains (hinv : FhInv c w) (hphase : w.host.smvar.phase = .started) (hneed : w.host.smvar.needFh = false)
    (hidle : w.hbReceive = .idle ∧ w.smWorker = .idle) {j : Nat} (hj : j < c.hostnum)
    (hl : w.host.sm.currentLiveset.isOn j = true) :
    w.host.hb.hbdomain.isOn j = true ∧ (w.host.smvar.sr2 = true ∨ w.host.sf.sfdomain.isOn j = true) := by
  have hcall : ¬ w.calling := fun hcall => hcall.elim (fun hne => hne hidle.1) fun hne => hne hidle.2
  have hpc : w.pc.view w.host = (.full, .full) := w.pc.view_started w.host (hinv.phase.symm.trans hphase)
  have hfull : HostMap.full.isOn j = true := by simpa using lt_of_lt_of_le hj c.hostnum_le
  have hheld : ∀ {domain last : HostMap}, Held domain last w j → domain.isOn j = true := by
    rintro domain last (hd | ⟨_, hc⟩ | hn)
    · exact hd
    · exact absurd hc hcall
    · exact absurd hn (by simp [hneed])
  exact ⟨hheld (hinv.heldHb j hj hl (by rw [hpc]; exact hfull)),
    (hinv.heldSf j hj hl (by rw [hpc]; exact hfull)).imp_right hheld⟩

/-- No host failure is lost: in every run whose calls of `start_fh` all hear what is due, a host in STARTED
with no signal and no report pending has its whole liveset in its domains. -/
theorem failures_are_noticed {c : HaConfig} {w : FhWorld} (h : (fhHost c).Reach (HeardInTime c) w)
    (hphase : w.host.smvar.phase = .started) (hneed : w.host.smvar.needFh = false)
    (hidle : w.hbReceive = .idle ∧ w.smWorker = .idle) {j : Nat} (hj : j < c.hostnum)
    (hl : w.host.sm.currentLiveset.isOn j = true) :
    w.host.hb.hbdomain.isOn j = true ∧ (w.host.smvar.sr2 = true ∨ w.host.sf.sfdomain.isOn j = true) := by
  have hinv : FhInv c w := h.inv (fun _ => Quiet.fhInv) fun _ _ _ hw ha hn => fhAct_fhInv hw ha hn
  exact hinv.domains hphase hneed hidle hj hl

/-- A run that comes to STARTED with nothing pending and without SR2 is where a run may start: everybody of the liveset
is in the domains, and still tracked there. -/
theorem Quiet.again {c : HaConfig} {w : FhWorld} (h : (fhHost c).Reach (HeardInTime c) w)
    (hphase : w.host.smvar.phase = .started) (hneed : w.host.smvar.needFh = false)
    (hidle : w.hbReceive = .idle ∧ w.smWorker = .idle) (hsr2 : w.host.smvar.sr2 = false) : Quiet c w := by
  have hinv : FhInv c w := h.inv (fun _ => Quiet.fhInv) fun _ _ _ hw ha hn => fhAct_fhInv hw ha hn
  have hpc : w.pc.view w.host = (.full, .full) := w.pc.view_started w.host (hinv.phase.symm.trans hphase)
  have hin : ∀ j < c.hostnum, w.host.sm.currentLiveset.isOn j = true →
      w.host.hb.hbdomain.isOn j = true ∧ w.host.sf.sfdomain.isOn j = true := by
    intro j hj hl
    obtain ⟨hhb, hsf⟩ := hinv.domains hphase hneed hidle hj hl
    exact ⟨hhb, hsf.resolve_left (by simp [hsr2])⟩
  have hkeeps : ∀ j < c.hostnum, (w.pc.keeps w.host).isOn j = true := by
    intro j hj
    have hlt : j < maxHostNum := lt_of_lt_of_le hj c.hostnum_le
    refine w.pc.view_keeps w.host hlt (.inl ?_)
    rw [hpc]
    simpa using hlt
  refine ⟨⟨hphase, hinv.phase.symm.trans hphase⟩, hinv.fencing, hinv.synced, hin, fun j hj hl => ⟨?_, ?_⟩⟩
  · exact (hinv.trackedHb j hj hl (hkeeps j hj) (hin j hj hl).1).resolve_right fun hne => hne hidle.1
  · rcases hinv.trackedSf j hj hl (hkeeps j hj) (hin j hj hl).2 with hon | hlast | hne
    · rw [hsr2] at hon
      cases hon
    · exact hlast
    · exact absurd hidle.2 hne

end

/-! ## One call of `start_fh` -/

/-- A configured host of the liveset has left the heartbeat domain or, without SR2, the State-File domain since
the last call. -/
def LivesetLoss (n : Nat) (h : Host) : Prop :=
  (∃ i < n, h.sm.currentLiveset.isOn i = true ∧ Dropped h.hb.hbdomain h.smvar.lastHbdomain i) ∨
    (h.smvar.sr2 = false ∧ ∃ i < n, h.sm.currentLiveset.isOn i = true ∧ Dropped h.sf.sfdomain h.smvar.lastSfdomain i)

instance (n : Nat) (h : Host) : Decidable (LivesetLoss n h) := by unfold LivesetLoss; infer_instance

/-- The host with the highest index that has left one of these domains is in the liveset. -/
def LastLossLive (n : Nat) (h : Host) : Prop :=
  LastDroppedLive n h.sm.currentLiveset h.hb.hbdomain h.smvar.lastHbdomain ∨
    (h.smvar.sr2 = false ∧ LastDroppedLive n h.sm.currentLiveset h.sf.sfdomain h.smvar.lastSfdomain)

theorem LastLossLive.loss {n : Nat} {h : Host} (hl : LastLossLive n h) : LivesetLoss n h := by
  rcases hl with ⟨k, hk, hd, hl, -⟩ | ⟨hsr2, k, hk, hd, hl, -⟩
  · exact .inl ⟨k, hk, hl, hd⟩
  · exact .inr ⟨hsr2, k, hk, hl, hd⟩

instance (n : Nat) (h : Host) : Decidable (LastLossLive n h) := by unfold LastLossLive; infer_instance

/-- The signal of a call that is neither forced nor suppressed. -/
theorem signals_iff {n : Nat} {h : Host} (hphase : h.smvar.phase.fhUnderway = false) :
    Signals n false h ↔ LastLossLive n h := by
  unfold Signals LastLossLive
  simp [hphase]

/-- What a call of `start_fh(FALSE)` is for: `need_fh` becomes set when a host of the liveset is lost, and the
domains are remembered. -/
def DetectsLoss (n : Nat) (h : Host) : Prop :=
  ((startFh n false h).smvar.needFh = true ↔ h.smvar.needFh = true ∨ LivesetLoss n h) ∧
    ∀ i < n, (startFh n false h).smvar.lastHbdomain.isOn i = h.hb.hbdomain.isOn i ∧
      (startFh n false h).smvar.lastSfdomain.isOn i = h.sf.sfdomain.isOn i

instance (n : Nat) (h : Host) : Decidable (DetectsLoss n h) := by unfold DetectsLoss; infer_instance

/-- A call of `start_fh(FALSE)` detects a loss exactly when, unless `need_fh` is set already or nobody of the liveset
is lost, the lost host that is looked at last, in one of the two domains, is in the liveset. -/
theorem start_fh_detects_iff {c : HaConfig} {h : Host} (hphase : h.smvar.phase.fhUnderway = false) :
    DetectsLoss c.hostnum h ↔
      h.smvar.needFh = true ∨ (LivesetLoss c.hostnum h → LastLossLive c.hostnum h) := by
  have hhb := (trackDomain_spec c.hostnum_le h.sm.currentLiveset h.hb.hbdomain h.smvar.lastHbdomain).track
  have hsf := (trackDomain_spec c.hostnum_le h.sm.currentLiveset h.sf.sfdomain h.smvar.lastSfdomain).track
  have hlast : ∀ i < c.hostnum, (startFh c.hostnum false h).smvar.lastHbdomain.isOn i = h.hb.hbdomain.isOn i ∧
      (startFh c.hostnum false h).smvar.lastSfdomain.isOn i = h.sf.sfdomain.isOn i :=
    fun i hi => ⟨(hhb i).trans (if_pos hi), (hsf i).trans (if_pos hi)⟩
  have hloss := LastLossLive.loss (n := c.hostnum) (h := h)
  rw [DetectsLoss, startFh_needFh, signals_iff hphase, and_iff_left hlast]
  constructor
  · intro hiff
    by_cases hneed : h.smvar.needFh = true
    · exact .inl hneed
    · exact .inr fun hl => (hiff.mpr (.inr hl)).resolve_left hneed
  · rintro (hneed | hfound)
    · exact ⟨fun _ => .inl hneed, fun _ => .inl hneed⟩
    · exact or_congr_right ⟨hloss, hfound⟩

/-- A pool of three: host 0 hears nobody any more, the others were heard at the last call. -/
def deafTriple (liveset : HostMap) : Host :=
  { Host.initial 0 with
    sm := { ComDataSm.initial with currentLiveset := liveset, phase := .started }
    hb := { ComDataHb.initial with hbdomain := 1 }
    sf := { ComDataSf.initial 0 with sfdomain := 7 }
    smvar := { SmVar.initial 0 with phase := .started, lastHbdomain := 7, lastSfdomain := 7 } }

/-- Both others are in the liveset. -/
theorem start_fh_detects_iff_deafTriple : DetectsLoss HaConfig.triple.hostnum (deafTriple 7) :=
  (start_fh_detects_iff (c := .triple) rfl).mpr (by decide)

/-- Host 2 is not in the liveset: the loss of host 1 is forgotten. -/
theorem start_fh_forgets_loss :
    (deafTriple 3).smvar.phase.fhUnderway = false ∧ LivesetLoss HaConfig.triple.hostnum (deafTriple 3) ∧
      (startFh HaConfig.triple.hostnum false (deafTriple 3)).smvar.needFh = false ∧
      (startFh HaConfig.triple.hostnum false (deafTriple 3)).smvar.lastHbdomain.isOn 1 = false := by
  decide

/-! ## Two runs of a host -/

/-- At most one host leaves a domain between two calls of `start_fh`. -/
def LeavesAlone (c : HaConfig) (w : FhWorld) : FhAction → Prop
  | .updateHbdomain now => w.smWorker = .idle ∧
      ∀ j < c.hostnum, ∀ k < c.hostnum, Dropped (updateHbdomain c now w.host w.hbSequence).hbdomain w.host.hb.hbdomain j →
        Dropped (updateHbdomain c now w.host w.hbSequence).hbdomain w.host.hb.hbdomain k → j = k
  | .updateSfdomain now => w.hbReceive = .idle ∧
      ∀ j < c.hostnum, ∀ k < c.hostnum, Dropped (updateSfdomain c now w.host).sfdomain w.host.sf.sfdomain j →
        Dropped (updateSfdomain c now w.host).sfdomain w.host.sf.sfdomain k → j = k
  | _ => True

instance (c : HaConfig) (w : FhWorld) (a : FhAction) : Decidable (HeardInTime c w a) := by
  cases a <;> unfold HeardInTime <;> infer_instance

instance (c : HaConfig) (w : FhWorld) (a : FhAction) : Decidable (LeavesAlone c w a) := by
  cases a <;> unfold LeavesAlone <;> infer_instance

/-- Two hosts are configured. -/
def quietConfig : HaConfig := .pair

/-- Long after the last sign of life of host 1. -/
def lateClock : MtcClock := 1000000

def quietHost : FhWorld where
  host :=
    { sm := { ComDataSm.initial with currentLiveset := 3, proposedLiveset := 3, fencing := .armed, phase := .started }
      hb := { ComDataHb.initial with hbdomain := 3, timeLastHb := fun _ => 0 }
      sf := { ComDataSf.initial 0 with
        ctl := ⟨true, true, false⟩, sfdomain := 3, sfAccess := true, timeLastSf := fun i => if i = 0 then lateClock else 0 }
      smvar := { SmVar.initial 0 with phase := .started, fencing := .armed, lastHbdomain := 3, lastSfdomain := 3 } }
  pc := .body .started
  hbReceive := .idle
  smWorker := .idle
  hbSequence _ := 0

theorem quietHost_quiet : Quiet quietConfig quietHost where
  phase := ⟨rfl, rfl⟩
  fencing := ⟨rfl, rfl⟩
  synced := rfl
  liveset := by decide
  tracked := by decide

/-- A heartbeat of host 1 in this phase. -/
def hearPeer (phase : SmPhase) (w : FhWorld) : FhAction :=
  .receiveHb 0 { hbPacket 1 (w.hbSequence 1 + 1) w.host with smPhase := phase }

/-- Host 1 asks for a round. -/
def askedFor : List (FhWorld → FhAction) := [hearPeer .fhready, fun _ => .hbStartFh]

/-- A step of the sm thread once host 1 shows the same phase on the heartbeat and in its record. -/
def stepTogether : List (FhWorld → FhAction) :=
  [fun _ => .sendHb, fun w => hearPeer w.host.sm.phase w, fun w => if w.hbReceive = .idle then .sendHb else .hbStartFh,
    fun _ => .writeRow,
    fun w => .readRow 1 ⟨0, false, false, ⟨3, 3, 3, 3⟩, ⟨false, .empty⟩, w.host.sm.phase, 0⟩ ⟨true, 0, 0, 0⟩,
    fun _ => .fh false]

def stepAlone : List (FhWorld → FhAction) := [fun _ => .sendHb, fun _ => .writeRow, fun _ => .fh false]

/-- Host 1 leaves the heartbeat domain. -/
def leavesHbdomain : List (FhWorld → FhAction) := [fun _ => .updateHbdomain lateClock, fun _ => .hbStartFh]

/-- Host 1 leaves the State-File domain. -/
def leavesSfdomain : List (FhWorld → FhAction) := [fun _ => .updateSfdomain lateClock, fun _ => .sfStartFh]

/-- Host 1 dies in FHREADY, before there is a view, and is removed. -/
theorem failures_are_noticed_quietHost :
    ∃ w : FhWorld, w.host.sm.currentLiveset = 1 ∧ w.host.hb.hbdomain.isOn 0 = true ∧
      (w.host.smvar.sr2 = true ∨ w.host.sf.sfdomain.isOn 0 = true) := by
  have hrun : ∃ w, (fhHost quietConfig).Reach (HeardInTime quietConfig) w ∧
      (decide (w.host.smvar.phase = .started) && decide (w.host.smvar.needFh = false) &&
        decide (w.hbReceive = .idle ∧ w.smWorker = .idle) && decide (w.host.sm.currentLiveset = 1)) = true :=
    Transition.Machine.reach_of_played quietHost_quiet
      (askedFor ++ stepTogether ++ stepTogether ++ leavesHbdomain ++ leavesSfdomain ++
       (List.replicate 24 stepAlone).flatten) _
      (by decide +kernel)
  obtain ⟨w, hw, hp⟩ := hrun
  simp only [Bool.and_eq_true, decide_eq_true_eq] at hp
  obtain ⟨⟨⟨hphase, hneed⟩, hidle⟩, hlive⟩ := hp
  exact ⟨w, hlive, failures_are_noticed (j := 0) hw hphase hneed hidle (by decide) (by rw [hlive]; decide)⟩

/-- Host 1 leaves the heartbeat domain when the view is frozen and FH3 has not come: `start_fh` keeps silent, the
liveset keeps host 1. -/
theorem failure_is_lost :
    ∃ w, (fhHost quietConfig).Reach (LeavesAlone quietConfig) w ∧
      (w.host.smvar.phase = .started ∧ w.host.smvar.needFh = false ∧ w.hbReceive = .idle ∧ w.smWorker = .idle) ∧
      w.host.sm.currentLiveset.isOn 1 = true ∧ w.host.hb.hbdomain.isOn 1 = false := by
  have hrun : ∃ w, (fhHost quietConfig).Reach (LeavesAlone quietConfig) w ∧
      (decide (w.host.smvar.phase = .started ∧ w.host.smvar.needFh = false ∧ w.hbReceive = .idle ∧ w.smWorker = .idle) &&
        decide (w.host.sm.currentLiveset.isOn 1 = true ∧ w.host.hb.hbdomain.isOn 1 = false)) = true :=
    Transition.Machine.reach_of_played quietHost_quiet
      (askedFor ++ (List.replicate 12 stepTogether).flatten ++ leavesHbdomain ++ (List.replicate 14 stepAlone).flatten) _
      (by decide +kernel)
  obtain ⟨w, hw, hp⟩ := hrun
  simp only [Bool.and_eq_true, decide_eq_true_eq] at hp
  exact ⟨w, hw, hp⟩

end Xha
