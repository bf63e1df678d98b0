/-
`update_sfdomain` (sm.c) with its two passes: the read-only one under the reader lock, and the writable one if
the first reports a change. What the writable pass does is known to the read-only one, but for `SF_access`
(`update_sfdomain_plain_iff`): the tests of a turn read nothing that earlier turns write, so both passes
report the same, and the bits that change are known beforehand (`PassInv`).
-/
import Xha.Com

namespace Xha

open Loop

/-- What `update_sfdomain_sub` works on; `hostmap` is its line for the log. -/
structure SfPass where
  psf : ComDataSf
  hostmap : List Char
  changed : Bool

namespace ComDataSf

/-- One turn of `update_sfdomain_sub`. -/
def updateSfdomainTurn (c : HaConfig) (now : MtcClock) (joinBlock writable : Bool) (s : SfPass) (index : Nat) : SfPass :=
  if index = c.myIndex ∧ s.psf.ctl.enableSfWrite = false then
    let s := { s with hostmap := s.hostmap ++ [if s.psf.sfAccess then 'D' else 'd'] }
    if s.psf.sfdomain.isOn index then
      { s with
        psf := if writable then { s.psf with sfdomain := s.psf.sfdomain.reset index } else s.psf
        changed := true }
    else s
  else if 0 ≤ s.psf.timeLastSf index ∧ now - s.psf.timeLastSf index < timeoutMs c.statefileTimeout then
    if s.psf.sfdomain.isOn index then { s with hostmap := s.hostmap ++ ['1'] }
    else if joinBlock = false then
      { psf := if writable then { s.psf with sfdomain := s.psf.sfdomain.set index } else s.psf
        hostmap := s.hostmap ++ ['@']
        changed := true }
    else { s with hostmap := s.hostmap ++ ['b'] }
  else
    let psf := if index = c.myIndex ∧ writable = true then { s.psf with sfAccess := false } else s.psf
    if psf.sfdomain.isOn index = false then { s with psf := psf, hostmap := s.hostmap ++ ['0'] }
    else
      { psf := if writable then { psf with sfdomain := psf.sfdomain.reset index } else psf
        hostmap := s.hostmap ++ ['_']
        changed := true }

/-- `update_sfdomain_sub`. -/
def updateSfdomainSub (c : HaConfig) (now : MtcClock) (joinBlock writable : Bool) (psf : ComDataSf) : SfPass :=
  forRange c.hostnum ⟨psf, [], false⟩ (updateSfdomainTurn c now joinBlock writable)

/-- `update_sfdomain`: the object it leaves, and its result. -/
def updateSfdomain (c : HaConfig) (now : MtcClock) (joinBlock : Bool) (psf : ComDataSf) : ComDataSf × Bool :=
  let r := updateSfdomainSub c now joinBlock false psf
  if r.changed then
    let r := updateSfdomainSub c now joinBlock true r.psf
    (r.psf, r.changed)
  else (r.psf, r.changed)

/-! ## What a pass does -/

section

variable (c : HaConfig) (now : MtcClock)

/-- The host was seen on the State-File within `T2`. -/
def seenOnSf (psf : ComDataSf) (index : Nat) : Bool :=
  0 ≤ psf.timeLastSf index ∧ now - psf.timeLastSf index < timeoutMs c.statefileTimeout

/-- The bit of the host is about to change. -/
def sfChanges (joinBlock : Bool) (psf : ComDataSf) (index : Nat) : Bool :=
  if index = c.myIndex ∧ psf.ctl.enableSfWrite = false then psf.sfdomain.isOn index
  else if seenOnSf c now psf index then !psf.sfdomain.isOn index && !joinBlock
  else psf.sfdomain.isOn index

/-- The local host writes the State-File, and has not succeeded within `T2`. -/
def losesSfAccess (psf : ComDataSf) : Bool := psf.ctl.enableSfWrite && !seenOnSf c now psf c.myIndex

end

section

variable {c : HaConfig} {now : MtcClock} {joinBlock writable : Bool} {psf psf' : ComDataSf}

theorem seenOnSf_iff {index : Nat} : seenOnSf c now psf index = true ↔
    0 ≤ psf.timeLastSf index ∧ now - psf.timeLastSf index < timeoutMs c.statefileTimeout := decide_eq_true_iff

/-- What a turn does to the object and the result. -/
theorem updateSfdomainTurn_eq (c : HaConfig) (now : MtcClock) (joinBlock writable : Bool) (s : SfPass) (index : Nat) :
    (updateSfdomainTurn c now joinBlock writable s index).psf =
      { s.psf with
        sfdomain := if (writable && sfChanges c now joinBlock s.psf index) = true then
            s.psf.sfdomain.setBoolean index (!s.psf.sfdomain.isOn index)
          else s.psf.sfdomain
        sfAccess := s.psf.sfAccess && !(writable && decide (index = c.myIndex) && losesSfAccess c now s.psf) } ∧
    (updateSfdomainTurn c now joinBlock writable s index).changed =
      (s.changed || sfChanges c now joinBlock s.psf index) := by
  unfold updateSfdomainTurn sfChanges losesSfAccess HostMap.setBoolean
  simp only [← seenOnSf_iff]
  by_cases hme : index = c.myIndex ∧ s.psf.ctl.enableSfWrite = false
  · -- the local host does not write the State-File
    obtain ⟨rfl, hwrite⟩ := hme
    by_cases hon : s.psf.sfdomain.isOn c.myIndex = true <;> cases writable <;> simp [hwrite, hon]
  · by_cases hseen : seenOnSf c now s.psf index = true
    · have hacc : (writable && decide (index = c.myIndex) &&
          (s.psf.ctl.enableSfWrite && !seenOnSf c now s.psf c.myIndex)) = false := by
        by_cases hi : index = c.myIndex
        · rw [hi] at hseen
          simp [hseen]
        · simp [hi]
      simp only [if_neg hme, if_pos hseen, hacc, Bool.not_false, Bool.and_true]
      by_cases hon : s.psf.sfdomain.isOn index = true <;> cases joinBlock <;> cases writable <;> simp [hon]
    · simp only [if_neg hme, if_neg hseen]
      by_cases hi : index = c.myIndex
      · have hwrite : s.psf.ctl.enableSfWrite = true := by
          by_contra hw
          exact hme ⟨hi, Bool.eq_false_iff.mpr hw⟩
        rw [hi] at hseen ⊢
        by_cases hon : s.psf.sfdomain.isOn c.myIndex = true <;> cases writable <;> simp [hwrite, hseen, hon]
      · by_cases hon : s.psf.sfdomain.isOn index = true <;> cases writable <;> simp [hi, hon]

end

/-- A pass after `k` hosts: only the two fields of a writable pass have changed, and no bit of a host to come. -/
structure PassInv (c : HaConfig) (now : MtcClock) (joinBlock writable : Bool) (psf : ComDataSf) (k : Nat) (s : SfPass) :
    Prop where
  rest : s.psf = { psf with sfdomain := s.psf.sfdomain, sfAccess := s.psf.sfAccess }
  passed : ∀ j < k, s.psf.sfdomain.isOn j = (psf.sfdomain.isOn j ^^ (writable && sfChanges c now joinBlock psf j))
  ahead : ∀ j, k ≤ j → s.psf.sfdomain.isOn j = psf.sfdomain.isOn j
  changed : s.changed = true ↔ ∃ j < k, sfChanges c now joinBlock psf j = true
  kept : writable = false ∨ s.changed = false → s.psf.sfdomain = psf.sfdomain
  access : s.psf.sfAccess = (psf.sfAccess && !(writable && decide (c.myIndex < k) && losesSfAccess c now psf))

section

variable {c : HaConfig} {now : MtcClock} {joinBlock writable : Bool} {psf : ComDataSf}

/-- The tests of a turn read nothing that earlier turns write. -/
theorem PassInv.tests {k : Nat} {s : SfPass} (h : PassInv c now joinBlock writable psf k s) :
    sfChanges c now joinBlock s.psf k = sfChanges c now joinBlock psf k ∧
      losesSfAccess c now s.psf = losesSfAccess c now psf := by
  have hctl : s.psf.ctl = psf.ctl := by rw [h.rest]
  have htime : s.psf.timeLastSf = psf.timeLastSf := by rw [h.rest]
  unfold sfChanges losesSfAccess seenOnSf
  rw [hctl, htime, h.ahead k (Nat.le_refl k)]
  exact ⟨rfl, rfl⟩

theorem PassInv.turn {k : Nat} {s : SfPass} (h : PassInv c now joinBlock writable psf k s) (hk : k < maxHostNum) :
    PassInv c now joinBlock writable psf (k + 1) (updateSfdomainTurn c now joinBlock writable s k) := by
  obtain ⟨hpsf, hchanged⟩ := updateSfdomainTurn_eq c now joinBlock writable s k
  obtain ⟨hchg, hloses⟩ := h.tests
  rw [hchg, hloses] at hpsf
  rw [hchg] at hchanged
  constructor
  · rw [hpsf]
    dsimp only
    generalize (if (writable && sfChanges c now joinBlock psf k) = true then
      s.psf.sfdomain.setBoolean k (!s.psf.sfdomain.isOn k) else s.psf.sfdomain) = sfdomain
    generalize (s.psf.sfAccess && !(writable && decide (k = c.myIndex) && losesSfAccess c now psf)) = sfAccess
    rw [h.rest]
  · intro j hj
    rw [hpsf]
    dsimp only
    by_cases hjk : j = k
    · -- the bit of this turn, which is as it was before
      subst hjk
      rw [h.ahead j (Nat.le_refl j)]
      cases hchg : writable && sfChanges c now joinBlock psf j with
      | true => rw [if_pos rfl, HostMap.isOn_setBoolean _ _ _ _ hk, if_pos rfl, Bool.xor_true]
      | false => rw [if_neg Bool.false_ne_true, h.ahead j (Nat.le_refl j), Bool.xor_false]
    · split
      · rw [HostMap.isOn_setBoolean _ _ _ _ hk, if_neg (Ne.symm hjk), h.passed j (by omega)]
      · exact h.passed j (by omega)
  · intro j hj
    rw [hpsf]
    dsimp only
    split
    · rw [HostMap.isOn_setBoolean _ _ _ _ hk, if_neg (by omega), h.ahead j (by omega)]
    · exact h.ahead j (by omega)
  · rw [hchanged, Bool.or_eq_true, h.changed]
    constructor
    · rintro (⟨j, hj, hc⟩ | hc)
      · exact ⟨j, by omega, hc⟩
      · exact ⟨k, by omega, hc⟩
    · rintro ⟨j, hj, hc⟩
      rcases Nat.lt_succ_iff_lt_or_eq.1 hj with hj | rfl
      · exact .inl ⟨j, hj, hc⟩
      · exact .inr hc
  · intro hkept
    rw [hchanged, Bool.or_eq_false_iff] at hkept
    have hno : (writable && sfChanges c now joinBlock psf k) = false := by
      rcases hkept with hw | ⟨-, hc⟩
      · rw [hw, Bool.false_and]
      · rw [hc, Bool.and_false]
    rw [hpsf]
    dsimp only
    rw [hno, if_neg Bool.false_ne_true]
    exact h.kept (hkept.imp_right And.left)
  · rw [hpsf]
    dsimp only
    rw [h.access]
    have hstep : decide (c.myIndex < k + 1) = (decide (c.myIndex < k) || decide (k = c.myIndex)) := by
      rw [Bool.eq_iff_iff, Bool.or_eq_true, decide_eq_true_iff, decide_eq_true_iff, decide_eq_true_iff]
      omega
    rw [hstep]
    cases psf.sfAccess <;> cases writable <;> cases losesSfAccess c now psf <;> simp

theorem passInv (c : HaConfig) (now : MtcClock) (joinBlock writable : Bool) (psf : ComDataSf) :
    PassInv c now joinBlock writable psf c.hostnum (updateSfdomainSub c now joinBlock writable psf) := by
  refine forRange_inv (PassInv c now joinBlock writable psf) ?_ fun k s hk h => h.turn (lt_of_lt_of_le hk c.hostnum_le)
  exact ⟨rfl, fun j hj => absurd hj (Nat.not_lt_zero j), fun _ _ => rfl, by simp, fun _ => rfl, by simp⟩

end

/-! ## The two passes -/

section

variable (c : HaConfig) (now : MtcClock) (joinBlock : Bool) (psf : ComDataSf)

/-- The read-only pass leaves the object. -/
theorem updateSfdomainSub_readOnly : (updateSfdomainSub c now joinBlock false psf).psf = psf := by
  have h := passInv c now joinBlock false psf
  rw [h.rest, h.kept (.inl rfl), h.access]
  simp

/-- Both passes report the same. -/
theorem updateSfdomainSub_changed :
    (updateSfdomainSub c now joinBlock false psf).changed = (updateSfdomainSub c now joinBlock true psf).changed := by
  rw [Bool.eq_iff_iff, (passInv c now joinBlock false psf).changed, (passInv c now joinBlock true psf).changed]

/-- What the writable pass writes when it reports no change. -/
theorem updateSfdomainSub_unreported (h : (updateSfdomainSub c now joinBlock true psf).changed = false) :
    (updateSfdomainSub c now joinBlock true psf).psf =
      { psf with sfAccess := psf.sfAccess && !losesSfAccess c now psf } := by
  have hinv := passInv c now joinBlock true psf
  rw [hinv.rest, hinv.kept (.inr h), hinv.access]
  simp [c.myIndex_lt]

/-- `update_sfdomain` does what the writable pass alone does, unless that pass only clears `SF_access`: no bit of
the domain is about to change, and the local host, which has access, has not written within `T2`. -/
theorem update_sfdomain_plain_iff :
    ((updateSfdomain c now joinBlock psf).1 = (updateSfdomainSub c now joinBlock true psf).psf ∧
        (updateSfdomain c now joinBlock psf).2 = (updateSfdomainSub c now joinBlock true psf).changed) ↔
      ¬(losesSfAccess c now psf = true ∧ psf.sfAccess = true ∧
        ∀ i < c.hostnum, sfChanges c now joinBlock psf i = false) := by
  have hsame := updateSfdomainSub_changed c now joinBlock psf
  have hread := updateSfdomainSub_readOnly c now joinBlock psf
  have hchanged := (passInv c now joinBlock true psf).changed
  unfold updateSfdomain
  dsimp only
  rw [hsame, hread]
  cases hc : (updateSfdomainSub c now joinBlock true psf).changed with
  | true =>
    -- the second pass runs
    obtain ⟨i, hi, hchg⟩ := hchanged.1 hc
    simp only [if_true, and_self, true_iff]
    rintro ⟨-, -, hno⟩
    rw [hno i hi] at hchg
    cases hchg
  | false =>
    have hno : ∀ i < c.hostnum, sfChanges c now joinBlock psf i = false := by
      intro i hi
      by_contra hchg
      rw [Bool.not_eq_false] at hchg
      rw [hchanged.2 ⟨i, hi, hchg⟩] at hc
      cases hc
    rw [updateSfdomainSub_unreported c now joinBlock psf hc]
    simp only [Bool.false_eq_true, if_false, and_true]
    constructor
    · rintro heq ⟨hloses, haccess, -⟩
      have := congrArg ComDataSf.sfAccess heq
      simp [hloses, haccess] at this
    · intro hkeep
      have hacc : (psf.sfAccess && !losesSfAccess c now psf) = psf.sfAccess := by
        cases ha : psf.sfAccess with
        | false => rfl
        | true =>
          cases hl : losesSfAccess c now psf with
          | false => rfl
          | true => exact absurd ⟨hl, ha, hno⟩ hkeep
      rw [hacc]

end

/-! ## What the two passes leave -/

section

variable {c : HaConfig} {now : MtcClock} {joinBlock : Bool} {psf : ComDataSf}

/-- The bits of the domain: those that are about to change have changed. -/
theorem isOn_updateSfdomain (j : Nat) : (updateSfdomain c now joinBlock psf).1.sfdomain.isOn j =
    (psf.sfdomain.isOn j ^^ (decide (j < c.hostnum) && sfChanges c now joinBlock psf j)) := by
  have hinv := passInv c now joinBlock true psf
  have hsame := updateSfdomainSub_changed c now joinBlock psf
  have hread := updateSfdomainSub_readOnly c now joinBlock psf
  unfold updateSfdomain
  dsimp only
  rw [hsame, hread]
  by_cases hj : j < c.hostnum
  · rw [decide_eq_true hj, Bool.true_and]
    split
    · rw [hinv.passed j hj, Bool.true_and]
    · rename_i hc
      have hno : sfChanges c now joinBlock psf j = false := by
        by_contra hchg
        exact hc (hinv.changed.2 ⟨j, hj, Bool.not_eq_false _ ▸ hchg⟩)
      rw [hno, Bool.xor_false]
  · rw [decide_eq_false hj, Bool.false_and, Bool.xor_false]
    split
    · exact hinv.ahead j (Nat.not_lt.1 hj)
    · rfl

/-- Whatever it changes in the domain it reports. -/
theorem updateSfdomain_unreported (hc : (updateSfdomain c now joinBlock psf).2 = false) :
    (updateSfdomain c now joinBlock psf).1 = psf := by
  have hread := updateSfdomainSub_readOnly c now joinBlock psf
  have hsame := updateSfdomainSub_changed c now joinBlock psf
  unfold updateSfdomain at hc ⊢
  dsimp only at hc ⊢
  rw [hsame, hread] at hc
  rw [hsame, hread]
  split
  · rename_i hchanged
    rw [if_pos hchanged, hchanged] at hc
    cases hc
  · rfl

/-- While joins are blocked nobody is admitted. -/
theorem updateSfdomain_blocked {j : Nat} (hoff : psf.sfdomain.isOn j = false) :
    (updateSfdomain c now true psf).1.sfdomain.isOn j = false := by
  have hno : sfChanges c now true psf j = false := by
    unfold sfChanges
    simp [hoff]
  rw [isOn_updateSfdomain, hno, hoff, Bool.and_false, Bool.xor_false]

/-- Who is in the domain then was seen in time, and the local host may write its record. -/
theorem updateSfdomain_seen {j : Nat} (hj : j < c.hostnum)
    (hon : (updateSfdomain c now joinBlock psf).1.sfdomain.isOn j = true) :
    seenOnSf c now psf j = true ∧ (j = c.myIndex → psf.ctl.enableSfWrite = true) := by
  rw [isOn_updateSfdomain, decide_eq_true hj, Bool.true_and] at hon
  unfold sfChanges at hon
  by_cases hme : j = c.myIndex ∧ psf.ctl.enableSfWrite = false
  · rw [if_pos hme, Bool.xor_self] at hon
    cases hon
  · rw [if_neg hme] at hon
    by_cases hseen : seenOnSf c now psf j = true
    · exact ⟨hseen, fun hj => Bool.not_eq_false _ ▸ fun hw => hme ⟨hj, hw⟩⟩
    · rw [if_neg hseen, Bool.xor_self] at hon
      cases hon

end

end ComDataSf

/-- The local host has access, since it reads the State-File, but it has not written for more than `T2` and is off
its own domain; the other host is seen. -/
def silentSf : ComDataSf :=
  { ComDataSf.initial 0 with
    ctl := ⟨true, true, false⟩
    sfAccess := true
    timeLastSf := fun i => if i = 0 then 30000 else 95000
    sfdomain := HostMap.empty.set 1 }

/-- Nothing is reported and nothing is written, where the writable pass clears `SF_access`. -/
theorem update_sfdomain_keeps_access :
    (silentSf.updateSfdomain .pair 100000 true).1 ≠ (silentSf.updateSfdomainSub .pair 100000 true true).psf := by
  intro heq
  have := congrArg ComDataSf.sfAccess heq
  revert this
  decide

end Xha
