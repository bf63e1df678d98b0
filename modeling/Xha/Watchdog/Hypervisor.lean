/-
The watchdog timers of the hypervisor, as the patch under hypervisor_patch has them: two to a domain, each under an id of
its own, and what `SCHEDOP_watchdog` does with them. The host goes down when a timer runs out.
-/
import Mathlib.Algebra.Group.Nat.Defs
import Mathlib.Data.Nat.Basic
import Mathlib.Tactic.ByContra

namespace Xha

/-- `NR_WATCHDOG_TIMERS`. -/
def nrWatchdogTimers : Nat := 2

/-- `watchdog_timer` of a domain, by the ids that the hypervisor gives out: when each active timer runs out (ms). -/
@[ext]
structure WatchdogTimers where
  expires : Nat → Option Nat
  slots : ∀ id, expires id ≠ none → 0 < id ∧ id ≤ nrWatchdogTimers

namespace WatchdogTimers

variable {t : WatchdogTimers} {id i now timeout : Nat}

/-- 0 is the id of no timer. -/
theorem expires_zero (t : WatchdogTimers) : t.expires 0 = none := by
  by_contra h
  exact absurd (t.slots 0 h).1 (lt_irrefl 0)

/-- No timer is active. -/
def off : WatchdogTimers := ⟨fun _ => none, fun _ h => absurd rfl h⟩

/-- The timer with an id is active from now on, or no longer. -/
def set (t : WatchdogTimers) (id : Nat) (expires : Option Nat) : WatchdogTimers where
  expires i := if i = id ∧ 0 < id ∧ id ≤ nrWatchdogTimers then expires else t.expires i
  slots i h := by
    split at h
    · rename_i hid
      rw [hid.1]
      exact hid.2
    · exact t.slots i h

/-- No timer has run out yet. -/
def running (t : WatchdogTimers) (now : Nat) : Bool :=
  (List.range nrWatchdogTimers).all fun i => (t.expires (i + 1)).all fun expires => now < expires

theorem running_iff : t.running now = true ↔ ∀ id expires, t.expires id = some expires → now < expires := by
  unfold running
  simp only [List.all_eq_true, List.mem_range, Option.all_eq_true, decide_eq_true_eq]
  constructor
  · intro h id expires hid
    obtain ⟨hpos, hle⟩ := t.slots id (by rw [hid]; exact Option.some_ne_none _)
    refine h (id - 1) (by omega) expires ?_
    rwa [Nat.sub_add_cancel hpos]
  · intro h i _ expires hi
    exact h _ _ hi

theorem set_expires_of_ne (h : i ≠ id) (expires : Option Nat) : (t.set id expires).expires i = t.expires i :=
  if_neg fun hid => h hid.1

theorem set_expires_self (h : 0 < id ∧ id ≤ nrWatchdogTimers) (expires : Option Nat) :
    (t.set id expires).expires id = expires :=
  if_pos ⟨rfl, h⟩

/-- Wherever the timer is active after it has been set to run out at some time, it runs out then. -/
theorem set_expires_le (t : WatchdogTimers) (id i : Nat) (expires : Option Nat) :
    (t.set id expires).expires i = t.expires i ∨ (t.set id expires).expires i = expires := by
  unfold set
  dsimp only
  split
  · exact .inr rfl
  · exact .inl rfl

end WatchdogTimers

def eexist : Int := 17
def einval : Int := 22

/-- `do_watchdog`: what it returns, and the timers after it. -/
def doWatchdog (t : WatchdogTimers) (now id timeout : Nat) : Int × WatchdogTimers :=
  if id = 0 then
    match (List.range nrWatchdogTimers).find? fun i => (t.expires (i + 1)).isNone with
    | none => (-eexist, t)
    | some i => ((i + 1 : Nat), t.set (i + 1) (some (now + timeout * 1000)))
  else if id > nrWatchdogTimers then (-einval, t)
  else if t.expires id = none then (-eexist, t)
  else if timeout = 0 then (0, t.set id none)
  else (0, t.set id (some (now + timeout * 1000)))

section

variable {t : WatchdogTimers} {now id timeout : Nat}

/-- A new timer takes the first id that is free. -/
theorem doWatchdog_new (t : WatchdogTimers) (now timeout : Nat) :
    (doWatchdog t now 0 timeout = (-eexist, t) ∧ ∀ i, 0 < i → i ≤ nrWatchdogTimers → t.expires i ≠ none) ∨
      ∃ new, 0 < new ∧ new ≤ nrWatchdogTimers ∧ t.expires new = none ∧
        doWatchdog t now 0 timeout = ((new : Int), t.set new (some (now + timeout * 1000))) := by
  unfold doWatchdog
  rw [if_pos rfl]
  split
  · rename_i hfind
    refine .inl ⟨rfl, fun i hpos hle hnone => ?_⟩
    have hused := List.find?_eq_none.1 hfind (i - 1) (List.mem_range.2 (by omega))
    rw [Nat.sub_add_cancel hpos, hnone] at hused
    exact hused rfl
  · rename_i i hfind
    have hmem := List.mem_range.1 (List.mem_of_find?_eq_some hfind)
    have hfree := List.find?_some (p := fun i => (t.expires (i + 1)).isNone) hfind
    exact .inr ⟨i + 1, Nat.succ_pos i, hmem, Option.isNone_iff_eq_none.1 hfree, rfl⟩

/-- An active timer is set again, or stopped. -/
theorem doWatchdog_active (h : t.expires id ≠ none) :
    doWatchdog t now id timeout = (0, t.set id (if timeout = 0 then none else some (now + timeout * 1000))) := by
  obtain ⟨hpos, hle⟩ := t.slots id h
  unfold doWatchdog
  rw [if_neg (by omega), if_neg (by omega), if_neg h]
  split <;> rfl

/-- No other id of a timer is accepted. -/
theorem doWatchdog_inactive (now timeout : Nat) (hid : id ≠ 0) (h : t.expires id = none) :
    ∃ errno, errno < 0 ∧ doWatchdog t now id timeout = (errno, t) := by
  unfold doWatchdog
  rw [if_neg hid, if_pos h]
  split
  · exact ⟨-einval, by decide, rfl⟩
  · exact ⟨-eexist, by decide, rfl⟩

end

end Xha
