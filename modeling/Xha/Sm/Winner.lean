/-
What a winner of `test_Survival_Rule` does to itself: it stays in its proposed liveset and in its domains
exactly when its frozen view shows it in both domains, or the State-File domain does not count
(`winner_keeps_self_iff`). The removal of the others treats the host itself as one of them.
-/
import Xha.Sm.Degradation
import Xha.Sm.FrozenView

namespace Xha

/-- The test has not taken the local host off the proposed liveset or off a domain. -/
def Host.KeepsSelf (c : HaConfig) (h : Host) : Prop :=
  (h.sm.proposedLiveset.isOn c.myIndex = true → (testSurvivalRule c h).2.sm.proposedLiveset.isOn c.myIndex = true) ∧
    (h.hb.hbdomain.isOn c.myIndex = true → (testSurvivalRule c h).2.hb.hbdomain.isOn c.myIndex = true) ∧
    (h.sf.sfdomain.isOn c.myIndex = true → (testSurvivalRule c h).2.sf.sfdomain.isOn c.myIndex = true)

instance (c : HaConfig) (h : Host) : Decidable (h.KeepsSelf c) := by unfold Host.KeepsSelf; infer_instance

/-- The local host is in none of them to begin with. -/
def Host.SelfOut (c : HaConfig) (h : Host) : Prop :=
  h.sm.proposedLiveset.isOn c.myIndex = false ∧ h.hb.hbdomain.isOn c.myIndex = false ∧
    h.sf.sfdomain.isOn c.myIndex = false

/-- The frozen view shows the local host in the heartbeat domain and in the State-File domain; the latter does not
count with SR2, or when neither clause of Survival Rule-1 is met, so that the host survives by Survival Rule-2. -/
def Host.SelfIn (c : HaConfig) (h : Host) : Prop :=
  (frozenHbd c h).isOn c.myIndex = true ∧
    ((frozenSfd c h).isOn c.myIndex = true ∨ h.smvar.sr2 = true ∨
      (firstClause c h = false ∧
        amIInLargestPartition c (h.smvar.maskStable c.hostnum).stableHb (h.smvar.maskStable c.hostnum).stableSf
          h.smvar.stableSf.weight = false))

theorem wonByRule1_eq (c : HaConfig) (h : Host) :
    wonByRule1 c h = (firstClause c h ||
      amIInLargestPartition c (h.smvar.maskStable c.hostnum).stableHb (h.smvar.maskStable c.hostnum).stableSf
        h.smvar.stableSf.weight) := by
  unfold wonByRule1 survivalRule1 firstClause
  cases (frozenSfd c h).subsetEqual (frozenHbd c h) && !isEmptyLiveset c.hostnum (frozenSfd c h) <;> rfl

theorem lostIn_eq (hbd sfd : HostMap) (sr2 : Bool) (index : Nat) :
    lostIn hbd sfd sr2 index = !(hbd.isOn index && (sr2 || sfd.isOn index)) := by
  unfold lostIn
  cases sr2 <;> cases hbd.isOn index <;> cases sfd.isOn index <;> rfl

/-- The winner does not count itself as lost. -/
theorem lostIn_self {c : HaConfig} {h : Host} (hwon : (testSurvivalRule c h).1 = true) :
    lostIn (frozenHbd c h) (frozenSfd c h) (if wonByRule1 c h then h.smvar.sr2 else wonByRule2 c h) c.myIndex = false ↔
      h.SelfIn c := by
  rw [testSurvivalRule_winner] at hwon
  unfold Host.SelfIn lostIn
  rw [wonByRule1_eq] at hwon ⊢
  generalize amIInLargestPartition c _ _ _ = vote at hwon ⊢
  generalize firstClause c h = first, wonByRule2 c h = rule2 at hwon ⊢
  generalize (frozenHbd c h).isOn c.myIndex = inHbd, (frozenSfd c h).isOn c.myIndex = inSfd, h.smvar.sr2 = sr2
  revert first vote rule2 inHbd inSfd sr2
  decide

/-- A winner keeps itself exactly when it is in its frozen view, or was out of everything already. -/
theorem winner_keeps_self_iff {c : HaConfig} {h : Host} (harmed : h.smvar.fencing = .armed)
    (hwon : (testSurvivalRule c h).1 = true) : h.KeepsSelf c ↔ h.SelfOut c ∨ h.SelfIn c := by
  have hself := lostIn_self hwon
  have hspec := (afterRules c h).removeLost_spec c.hostnum (frozenHbd c h) (frozenSfd c h)
    (if wonByRule1 c h then h.smvar.sr2 else wonByRule2 c h)
  have hproposed := (afterRules c h).removeLost_proposed c.hostnum (frozenHbd c h) (frozenSfd c h)
    (if wonByRule1 c h then h.smvar.sr2 else wonByRule2 c h) c.myIndex
  have hbefore : (afterRules c h).sm.proposedLiveset = h.sm.proposedLiveset := by
    unfold afterRules
    dsimp only
    split <;> rfl
  have hkept : ∀ sr2, ((frozenHbd c h).isOn c.myIndex && (sr2 || (frozenSfd c h).isOn c.myIndex)) =
      !lostIn (frozenHbd c h) (frozenSfd c h) sr2 c.myIndex := fun sr2 => by rw [lostIn_eq, Bool.not_not]
  rw [hkept] at hproposed
  unfold Host.KeepsSelf Host.SelfOut
  rw [testSurvivalRule_of_won hwon harmed, Host.smWriterUnlock_proposed, Host.smWriterUnlock_hb, Host.smWriterUnlock_sf,
    hspec.hbdomain, hspec.sfdomain, hproposed, hbefore, ← hself]
  generalize lostIn (frozenHbd c h) (frozenSfd c h) _ c.myIndex = lost
  simp only [c.myIndex_lt, decide_true, Bool.not_true, Bool.false_or]
  show (_ → (_ && !lost) = true) ∧ (h.hb.hbdomain.isOn c.myIndex = true → (h.hb.hbdomain.isOn c.myIndex && !lost) = true) ∧
    (h.sf.sfdomain.isOn c.myIndex = true → (h.sf.sfdomain.isOn c.myIndex && !lost) = true) ↔ _
  generalize h.sm.proposedLiveset.isOn c.myIndex = inProposed, h.hb.hbdomain.isOn c.myIndex = inHbdomain,
    h.sf.sfdomain.isOn c.myIndex = inSfdomain
  revert lost inProposed inHbdomain inSfdomain
  decide

/-- Two hosts that hear each other, host 0 local: the frozen State-File domain is the one given. -/
def frozenPair (sfdomain : HostMap) : Host :=
  { Host.initial 0 with
    sm := { ComDataSm.initial with currentLiveset := 3, proposedLiveset := 3, fencing := .armed, phase := .fh3 }
    hb := { ComDataHb.initial with hbdomain := 3 }
    sf := { ComDataSf.initial 0 with sfdomain := sfdomain }
    smvar := { SmVar.initial 0 with
      phase := .fh3, fencing := .armed
      stableHb := { ComDataHb.initial with hbdomain := 3, raw := fun _ => ⟨3, 3, 3, sfdomain⟩ }
      stableSf := { ComDataSf.initial 0 with sfdomain := sfdomain, raw := fun _ => ⟨3, 3, 3, sfdomain⟩ } } }

/-- Both have the State-File. -/
theorem winner_keeps_self_iff_pair : (frozenPair 3).KeepsSelf .pair :=
  (winner_keeps_self_iff (c := .pair) rfl (by decide)).mpr (.inr ⟨by decide, .inl (by decide)⟩)

/-- Only host 1 has the State-File: host 0 wins by the first clause, and removes itself. -/
theorem winner_removes_itself :
    (frozenPair 2).smvar.fencing = .armed ∧ (testSurvivalRule .pair (frozenPair 2)).1 = true ∧
      ¬(frozenPair 2).KeepsSelf .pair ∧
      (testSurvivalRule .pair (frozenPair 2)).2.sm.proposedLiveset.isOn HaConfig.pair.myIndex = false := by
  decide

end Xha
