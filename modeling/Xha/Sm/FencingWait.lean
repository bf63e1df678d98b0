/-
The wait before failover (phase 4 of `fault_handler`, sm.c): the configured times are unsigned 32-bit words, and
the seconds become milliseconds in them; the clocks are signed 64-bit words. What the wait lacks is a multiple of
`2^32` that the words have lost, and `fencing_wait_exact_iff` says when there is none.
-/
import Xha.Config.Parameters
import Xha.Sm.FaultHandler

namespace Xha

open Loop Wrap

/-! ## The computation -/

/-- `FH_MINIMUM_SLEEP_BEFORE_FO`, in seconds. -/
def fhMinimumSleepBeforeFo : Nat := 10

/-- `_min` of two `MTC_U32`. -/
def minU32 (x y : MtcU32) : MtcU32 := if x < y then x else y

/-- `_max` of two `MTC_U32`. -/
def maxU32 (x y : MtcU32) : MtcU32 := if y < x then x else y

/-- The `sleep_time` of phase 4. -/
def sleepTime (c : HaConfigCommon) (fhSleepExtend : Bool) (p3StartTime p4StartTime : BitVec 64) : BitVec 64 :=
  let t1 := c.parameter .heartbeatInterval
  let T1 := c.parameter .heartbeatTimeout
  let t2 := c.parameter .statefileInterval
  let T2 := c.parameter .statefileTimeout
  let Wh := c.parameter .heartbeatWatchdogTimeout
  let Ws := c.parameter .statefileWatchdogTimeout
  let wait : MtcU32 := (maxU32 Wh Ws - minU32 T1 T2 + maxU32 t1 t2) * BitVec.ofNat 32 oneSec
  let extension : MtcU32 := (if fhSleepExtend then minU32 T1 T2 else 0) * BitVec.ofNat 32 oneSec
  let x := wait.setWidth 64 - (p4StartTime - p3StartTime) + extension.setWidth 64
  let y := BitVec.ofNat 64 (fhMinimumSleepBeforeFo * oneSec)
  if y.slt x then x else y

/-! ## The intended time -/

section

variable (c : HaConfigCommon) (fhSleepExtend : Bool)

/-- A configured time, in seconds. -/
def HaConfigCommon.seconds (p : Parameter) : Int := ((c.parameter p).toNat : Int)

/-- `max(Wh, Ws) - min(T1, T2) + max(t1, t2)` in integers. -/
def fencingWait : Int :=
  max (c.seconds .heartbeatWatchdogTimeout) (c.seconds .statefileWatchdogTimeout) -
    min (c.seconds .heartbeatTimeout) (c.seconds .statefileTimeout) +
    max (c.seconds .heartbeatInterval) (c.seconds .statefileInterval)

/-- `min(T1, T2)` for a wait that is extended. -/
def fencingExtension : Int :=
  if fhSleepExtend then min (c.seconds .heartbeatTimeout) (c.seconds .statefileTimeout) else 0

/-- The time to sleep, `elapsed` milliseconds after the start of phase 3. -/
def intendedSleep (elapsed : Int) : Int :=
  max ((fencingWait c + fencingExtension c fhSleepExtend) * oneSec - elapsed) (fhMinimumSleepBeforeFo * oneSec)

/-- How often `2^32` goes into the two products: what they lose when they are stored. -/
def wrapsLost : Int := fencingWait c * oneSec / 2 ^ 32 + fencingExtension c fhSleepExtend * oneSec / 2 ^ 32

end

theorem toNat_minU32 (x y : MtcU32) : ((minU32 x y).toNat : Int) = min (x.toNat : Int) y.toNat := by
  unfold minU32
  split
  · rename_i h
    rw [BitVec.lt_def] at h
    omega
  · rename_i h
    rw [BitVec.lt_def] at h
    omega

theorem toNat_maxU32 (x y : MtcU32) : ((maxU32 x y).toNat : Int) = max (x.toNat : Int) y.toNat := by
  unfold maxU32
  split
  · rename_i h
    rw [BitVec.lt_def] at h
    omega
  · rename_i h
    rw [BitVec.lt_def] at h
    omega

/-- An unsigned word is the word of its number. -/
theorem eq_ofInt (x : MtcU32) : x = BitVec.ofInt 32 (x.toNat : Int) := by
  rw [BitVec.ofInt_natCast, BitVec.ofNat_toNat, BitVec.setWidth_eq]

/-- The first product keeps the wait modulo `2^32`. -/
theorem toNat_wait (c : HaConfigCommon) :
    ((((maxU32 (c.parameter .heartbeatWatchdogTimeout) (c.parameter .statefileWatchdogTimeout) -
      minU32 (c.parameter .heartbeatTimeout) (c.parameter .statefileTimeout) +
      maxU32 (c.parameter .heartbeatInterval) (c.parameter .statefileInterval)) * BitVec.ofNat 32 oneSec).toNat : Nat) :
      Int) = fencingWait c * oneSec % 2 ^ 32 := by
  rw [← toNat_ofInt_eq_emod, BitVec.ofInt_mul, fencingWait, BitVec.ofInt_add, ofInt_sub, BitVec.ofInt_natCast]
  unfold HaConfigCommon.seconds
  rw [← toNat_maxU32, ← toNat_maxU32, ← toNat_minU32, ← eq_ofInt, ← eq_ofInt, ← eq_ofInt]

theorem toNat_extension (c : HaConfigCommon) (fhSleepExtend : Bool) :
    ((((if fhSleepExtend then minU32 (c.parameter .heartbeatTimeout) (c.parameter .statefileTimeout) else 0) *
      BitVec.ofNat 32 oneSec : MtcU32).toNat : Nat) : Int) = fencingExtension c fhSleepExtend * oneSec % 2 ^ 32 := by
  rw [← toNat_ofInt_eq_emod, BitVec.ofInt_mul, fencingExtension, BitVec.ofInt_natCast]
  unfold HaConfigCommon.seconds
  cases fhSleepExtend with
  | true => rw [if_pos rfl, if_pos rfl, ← toNat_minU32, ← eq_ofInt]
  | false => rfl

/-- The sleep, with the products reduced modulo `2^32`. -/
theorem sleepTime_toInt (c : HaConfigCommon) (fhSleepExtend : Bool) {p3StartTime p4StartTime : BitVec 64}
    (h0 : 0 ≤ p3StartTime.toInt) (h : p3StartTime.toInt ≤ p4StartTime.toInt) :
    (sleepTime c fhSleepExtend p3StartTime p4StartTime).toInt =
      max (fencingWait c * oneSec % 2 ^ 32 - (p4StartTime.toInt - p3StartTime.toInt) +
        fencingExtension c fhSleepExtend * oneSec % 2 ^ 32) (fhMinimumSleepBeforeFo * oneSec : Int) := by
  have hwait := toNat_wait c
  have hext := toNat_extension c fhSleepExtend
  unfold sleepTime
  dsimp only
  generalize (maxU32 (c.parameter .heartbeatWatchdogTimeout) (c.parameter .statefileWatchdogTimeout) -
    minU32 (c.parameter .heartbeatTimeout) (c.parameter .statefileTimeout) +
    maxU32 (c.parameter .heartbeatInterval) (c.parameter .statefileInterval)) * BitVec.ofNat 32 oneSec = wait at hwait ⊢
  generalize ((if fhSleepExtend then minU32 (c.parameter .heartbeatTimeout) (c.parameter .statefileTimeout) else 0) *
    BitVec.ofNat 32 oneSec : MtcU32) = extension at hext ⊢
  rw [← hwait, ← hext]
  -- no clock value is far enough from another one for the 64-bit sum to overflow
  have hsum : (wait.setWidth 64 - (p4StartTime - p3StartTime) + extension.setWidth 64).toInt =
      (wait.toNat : Int) - (p4StartTime.toInt - p3StartTime.toInt) + extension.toNat := by
    have hlt := BitVec.toInt_lt (x := p4StartTime)
    have hw := wait.isLt
    have he := extension.isLt
    have hof : wait.setWidth 64 - (p4StartTime - p3StartTime) + extension.setWidth 64 =
        BitVec.ofInt 64 ((wait.toNat : Int) - (p4StartTime.toInt - p3StartTime.toInt) + extension.toNat) := by
      rw [BitVec.ofInt_add, ofInt_sub, ofInt_sub, BitVec.ofInt_toInt, BitVec.ofInt_toInt, setWidth_eq_ofInt,
        setWidth_eq_ofInt]
    rw [hof]
    apply BitVec.toInt_ofInt_eq_self (by omega) <;> omega
  have hmin : (BitVec.ofNat 64 (fhMinimumSleepBeforeFo * oneSec)).toInt = (fhMinimumSleepBeforeFo * oneSec : Int) := by
    rw [(toInt_ofNat_eq_iff (by omega) _).2 (by decide), Int.natCast_mul]
  by_cases hslt : (BitVec.ofNat 64 (fhMinimumSleepBeforeFo * oneSec)).slt
      (wait.setWidth 64 - (p4StartTime - p3StartTime) + extension.setWidth 64) = true
  · rw [if_pos hslt]
    rw [BitVec.slt_iff_toInt_lt, hsum, hmin] at hslt
    rw [hsum]
    omega
  · rw [if_neg hslt]
    rw [BitVec.slt_iff_toInt_lt, hsum, hmin] at hslt
    rw [hmin]
    omega

/-- The sleep is the intended time exactly when the products lose nothing, or so much time has passed since the
start of phase 3 that the minimum is due, with the loss and without. -/
theorem fencing_wait_exact_iff (c : HaConfigCommon) (fhSleepExtend : Bool) (p3StartTime p4StartTime : BitVec 64)
    (h0 : 0 ≤ p3StartTime.toInt) (h : p3StartTime.toInt ≤ p4StartTime.toInt) :
    (sleepTime c fhSleepExtend p3StartTime p4StartTime).toInt =
        intendedSleep c fhSleepExtend (p4StartTime.toInt - p3StartTime.toInt) ↔
      wrapsLost c fhSleepExtend = 0 ∨
      ((fencingWait c + fencingExtension c fhSleepExtend) * oneSec - fhMinimumSleepBeforeFo * oneSec ≤
          p4StartTime.toInt - p3StartTime.toInt ∧
        (fencingWait c + fencingExtension c fhSleepExtend) * oneSec - 2 ^ 32 * wrapsLost c fhSleepExtend -
          fhMinimumSleepBeforeFo * oneSec ≤ p4StartTime.toInt - p3StartTime.toInt) := by
  rw [sleepTime_toInt c fhSleepExtend h0 h, intendedSleep]
  unfold wrapsLost
  have hwait := Int.emod_add_mul_ediv (fencingWait c * oneSec) (2 ^ 32)
  have hext := Int.emod_add_mul_ediv (fencingExtension c fhSleepExtend * oneSec) (2 ^ 32)
  rw [Int.add_mul]
  omega

theorem fencing_wait_exact_iff_initial : (sleepTime .initial true 1000 3000).toInt = 47000 :=
  ((fencing_wait_exact_iff .initial true 1000 3000 (by decide) (by decide)).2 (.inl (by decide))).trans (by decide)

/-! ## Timeouts longer than the watchdog's -/

/-- A heartbeat and a State-File timeout of a minute; the watchdog timeouts keep their defaults. -/
def longTimeouts : List XmlNode :=
  [.leaf "HeartbeatTimeout" ⟨['6', '0'], by decide⟩, .leaf "StateFileTimeout" ⟨['6', '0'], by decide⟩]

/-- With these the wait is longer than 49 days, instead of ten seconds. -/
theorem long_timeout_wraps :
    ∃ c, interpretConfigFile poolAddress (.document (poolDoc [firstHost, secondHost] longTimeouts firstHost.1)) = .ok c ∧
      (sleepTime c.common false 1000 2000).toInt = 4294955296 ∧ intendedSleep c.common false (2000 - 1000) = 10000 := by
  obtain ⟨c, hc⟩ := (poolDoc_lists [firstHost, secondHost] longTimeouts firstHost.1).accepted
    (poolDoc_complete _ (fun host hhost => poolAddress_some host (by simpa using hhost)) (by decide))
    (by decide) (by decide) (by decide)
  refine ⟨c, hc, ?_⟩
  unfold sleepTime intendedSleep fencingWait fencingExtension HaConfigCommon.seconds
  rw [poolDoc_parameter hc]
  decide

end Xha
