/-
The command that stops the timers a dead daemon has left (cleanupwatchdog.c): what it makes of the file of the ids, any
text there is, and which timers it stops. It never sets a timer, and it gives up at the first one it cannot stop
(`cleanup_stops_in_order`, by induction on the ids). What the daemon writes, it reads.
-/
import Xha.Watchdog.Table

namespace Xha

/-! ## The file of the ids -/

/-- `BUFFER_SIZE`. -/
def bufferSize : Nat := 128

/-- The strings that `fgets(buf, sizeof(buf), fp)` gives one after the other; `room` is what is left of the buffer. -/
def fgetsLines (size : Nat) (room : Nat) (buf : List Char) : List Char → List (List Char)
  | [] => if buf = [] then [] else [buf]
  | chr :: rest =>
    if chr = '\n' ∨ room ≤ 1 then (buf ++ [chr]) :: fgetsLines size (size - 1) [] rest
    else fgetsLines size (room - 1) (buf ++ [chr]) rest

/-- `chop`, of an array that ends at its first zero byte. -/
def chop (line : List Char) : List Char :=
  let str := line.takeWhile fun chr => chr ≠ '\x00'
  if str.getLast? = some '\n' then str.dropLast else str

/-- The first loop of `main`: the ids, unless a line is no number or there are too many. -/
def readIds (id : List Nat) : List (List Char) → Option (List Nat)
  | [] => some id
  | buf :: rest =>
    let (value, endptr) := strtol (chop buf)
    let id := id ++ [(value % 2 ^ 32).toNat]
    if endptr ≠ [] then none
    else if id.length ≥ maxWatchdogInstance then none
    else readIds id rest

/-- The ids in a file. -/
def idsOfFile (text : List Char) : Option (List Nat) := readIds [] (fgetsLines bufferSize (bufferSize - 1) [] text)

/-! ## Stopping timers -/

def mtcErrorInvalidParameter : MtcStatus := 1103
def mtcErrorUndefined : MtcStatus := 10000

/-- `do_watchdog_disable`, up to what stops the hypercall: `errno` is not negative, so no error is
`MTC_ERROR_WD_INVALID_HANDLE`. -/
def doWatchdogDisable (env : HypercallEnv) (now : Nat) (t : WatchdogTimers) (id : Nat) : MtcStatus × WatchdogTimers :=
  if id = 0 then (mtcErrorInvalidParameter, t)
  else if !env.opens then (mtcErrorWdOpen, t)
  else if !env.locksArg then (mtcErrorWdInsufficientResource, t)
  else if !env.locksHypercall then (mtcErrorWdInsufficientResource, t)
  else
    let (ret, t) := if env.reaches then doWatchdog t now id 0 else (-1, t)
    let errno := -ret
    if ret = 0 then (mtcSuccess, t)
    else if ret < 0 ∧ errno = -einval then (mtcErrorWdInvalidHandle, t)
    else if ret < 0 then (mtcErrorWdInstanceUnavailable, t)
    else (mtcErrorUndefined, t)

/-- The exit codes of `cleanupwatchdog`. -/
inductive CleanupExit
  | success | invalidParameter | transientSystemError | internalBug
  deriving DecidableEq

/-- The loop over the ids of the file; `env` is what the next hypercalls meet. -/
def disableIds (env : Nat → HypercallEnv) (now : Nat) (t : WatchdogTimers) : List Nat → Nat → CleanupExit × WatchdogTimers
  | [], _ => (.success, t)
  | id :: rest, k =>
    if id = 0 then disableIds env now t rest (k + 1)
    else
      let (status, t) := doWatchdogDisable (env k) now t id
      if status = mtcErrorWdInsufficientResource then (.transientSystemError, t)
      else if status ≠ mtcSuccess then (.internalBug, t)
      else disableIds env now t rest (k + 1)

/-- The loop of `--force` without a file. -/
def disableSlots (env : Nat → HypercallEnv) (now : Nat) (t : WatchdogTimers) : List Nat → CleanupExit × WatchdogTimers
  | [] => (.success, t)
  | idindex :: rest =>
    let (status, t) := doWatchdogDisable (env idindex) now t idindex
    if status = mtcErrorWdInsufficientResource then (.transientSystemError, t)
    else if status = mtcErrorUndefined then (.internalBug, t)
    else disableSlots env now t rest

/-- `main`; the file is absent when it cannot be opened for reading. -/
def cleanupwatchdog (force : Bool) (env : Nat → HypercallEnv) (now : Nat) (file : Option (List Char)) (t : WatchdogTimers) :
    CleanupExit × WatchdogTimers :=
  match file with
  | none => if force then disableSlots env now t [1, 2] else (.success, t)
  | some text =>
    match idsOfFile text with
    | none => (.invalidParameter, t)
    | some ids => disableIds env now t ids 0

/-! ## What the daemon writes -/

/-- The timers without those of some ids. -/
def WatchdogTimers.stopAll (t : WatchdogTimers) (ids : List Nat) : WatchdogTimers := ids.foldl (fun t id => t.set id none) t

/-- The timers of all ids but 0 can be stopped one after the other. -/
structure WatchdogTimers.Stoppable (t : WatchdogTimers) (ids : List Nat) : Prop where
  distinct : (ids.filter (· ≠ 0)).Nodup
  active : ∀ id ∈ ids, id ≠ 0 → t.expires id ≠ none

/-- A timer is stopped, or nothing changes. -/
theorem doWatchdogDisable_cases (env : HypercallEnv) (now : Nat) (t : WatchdogTimers) {id : Nat} (hid : id ≠ 0) :
    (t.expires id ≠ none ∧ doWatchdogDisable env now t id = (mtcSuccess, t.set id none)) ∨
      ∃ status, status ≠ mtcSuccess ∧ status ≠ mtcErrorUndefined ∧ doWatchdogDisable env now t id = (status, t) ∧
        (env.clear = true → t.expires id = none ∧ status ≠ mtcErrorWdInsufficientResource) := by
  have hclear : env.clear = true → env.opens = true ∧ env.locksArg = true ∧ env.locksHypercall = true ∧ env.reaches = true := by
    intro h
    simp only [HypercallEnv.clear, Bool.and_eq_true] at h
    exact ⟨h.1.1.1.2, h.1.1.1.1.1, h.1.1.1.1.2, h.2⟩
  have hrefused : ∀ errno : Int, errno < 0 → ∀ t : WatchdogTimers,
      (if errno = 0 then (mtcSuccess, t)
        else if errno < 0 ∧ -errno = -einval then (mtcErrorWdInvalidHandle, t)
        else if errno < 0 then (mtcErrorWdInstanceUnavailable, t) else (mtcErrorUndefined, t)) =
      (mtcErrorWdInstanceUnavailable, t) := by
    intro errno hneg t
    have hinval : ¬ (errno < 0 ∧ -errno = -einval) := by
      rintro ⟨-, h⟩
      unfold einval at h
      omega
    rw [if_neg hneg.ne, if_neg hinval, if_pos hneg]
  unfold doWatchdogDisable
  rw [if_neg hid]
  by_cases hopen : env.opens = true
  · by_cases harg : env.locksArg = true
    · by_cases hhypercall : env.locksHypercall = true
      · rw [if_neg (by simp [hopen]), if_neg (by simp [harg]), if_neg (by simp [hhypercall])]
        by_cases hreach : env.reaches = true
        · rw [if_pos hreach]
          by_cases hactive : t.expires id = none
          · obtain ⟨errno, hneg, hdo⟩ := doWatchdog_inactive now 0 hid hactive
            rw [hdo]
            exact .inr ⟨_, by decide, by decide, hrefused errno hneg t, fun _ => ⟨hactive, by decide⟩⟩
          · rw [doWatchdog_active hactive]
            exact .inl ⟨hactive, rfl⟩
        · rw [if_neg hreach]
          exact .inr ⟨_, by decide, by decide, hrefused (-1) (by decide) t, fun h => absurd (hclear h).2.2.2 hreach⟩
      · rw [if_neg (by simp [hopen]), if_neg (by simp [harg]), if_pos (by simpa using hhypercall)]
        exact .inr ⟨_, by decide, by decide, rfl, fun h => absurd (hclear h).2.2.1 hhypercall⟩
    · rw [if_neg (by simp [hopen]), if_pos (by simpa using harg)]
      exact .inr ⟨_, by decide, by decide, rfl, fun h => absurd (hclear h).2.1 harg⟩
  · rw [if_pos (by simpa using hopen)]
    exact .inr ⟨_, by decide, by decide, rfl, fun h => absurd (hclear h).1 hopen⟩

/-- The loop stops the timers of the ids up to one that it cannot stop. -/
theorem disableIds_spec (env : Nat → HypercallEnv) (now : Nat) (ids : List Nat) (k : Nat) (t : WatchdogTimers) :
    ∃ stopped rest, ids = stopped ++ rest ∧ t.Stoppable stopped ∧
      (disableIds env now t ids k).2 = t.stopAll stopped ∧
      ((disableIds env now t ids k).1 = .success ↔ rest = []) ∧
      ((∀ k, (env k).clear = true) → ∀ id ∈ rest.head?,
        id ≠ 0 ∧ (t.stopAll stopped).expires id = none ∧ (disableIds env now t ids k).1 = .internalBug) := by
  induction ids generalizing k t with
  | nil => exact ⟨[], [], rfl, ⟨List.nodup_nil, by simp⟩, rfl, iff_of_true rfl rfl, by simp⟩
  | cons id ids ih =>
    by_cases hid : id = 0
    · subst hid
      obtain ⟨stopped, rest, rfl, hstop, htimers, hexit, hnext⟩ := ih (k + 1) t
      have hzero : t.set 0 none = t := by
        ext i : 2
        exact if_neg fun h => absurd h.2.1 (lt_irrefl 0)
      have hall : t.stopAll (0 :: stopped) = t.stopAll stopped := congrArg (·.stopAll stopped) hzero
      rw [disableIds, if_pos rfl]
      refine ⟨0 :: stopped, rest, rfl, ⟨?_, ?_⟩, ?_, hexit, ?_⟩
      · simpa using hstop.distinct
      · intro id hmem hne
        rcases List.mem_cons.1 hmem with rfl | hmem
        · exact absurd rfl hne
        · exact hstop.active id hmem hne
      · rw [hall]
        exact htimers
      · rw [hall]
        exact hnext
    · rcases doWatchdogDisable_cases (env k) now t hid with ⟨hactive, hdo⟩ | ⟨status, hstatus, -, hdo, hclear⟩
      · obtain ⟨stopped, rest, rfl, hstop, htimers, hexit, hnext⟩ := ih (k + 1) (t.set id none)
        have hrest : disableIds env now t (id :: (stopped ++ rest)) k =
            disableIds env now (t.set id none) (stopped ++ rest) (k + 1) := by
          rw [disableIds, if_neg hid, hdo]
          rfl
        have hnot : id ∉ stopped := fun hmem =>
          hstop.active id hmem hid (WatchdogTimers.set_expires_self (t.slots id hactive) none)
        rw [hrest]
        refine ⟨id :: stopped, rest, rfl, ⟨?_, ?_⟩, htimers, hexit, hnext⟩
        · have hfilter : (id :: stopped).filter (· ≠ 0) = id :: stopped.filter (· ≠ 0) := by simp [hid]
          rw [hfilter, List.nodup_cons]
          exact ⟨fun hmem => hnot (List.mem_filter.1 hmem).1, hstop.distinct⟩
        · intro j hmem hne
          rcases List.mem_cons.1 hmem with rfl | hmem
          · exact hactive
          · have hj := hstop.active j hmem hne
            have hdiff : j ≠ id := fun heq => hnot (heq ▸ hmem)
            rwa [WatchdogTimers.set_expires_of_ne hdiff] at hj
      · have hexit : disableIds env now t (id :: ids) k =
            (if status = mtcErrorWdInsufficientResource then .transientSystemError else .internalBug, t) := by
          rw [disableIds, if_neg hid, hdo]
          dsimp only
          rw [if_pos hstatus]
          split <;> rfl
        rw [hexit]
        refine ⟨[], id :: ids, rfl, ⟨List.nodup_nil, List.forall_mem_nil _⟩, rfl, ?_, ?_⟩
        · refine iff_of_false ?_ (List.cons_ne_nil id ids)
          dsimp only
          split <;> rintro ⟨⟩
        · intro henv j hj
          obtain rfl : id = j := by simpa using hj
          obtain ⟨hinactive, hresource⟩ := hclear (henv k)
          exact ⟨hid, hinactive, if_neg hresource⟩

theorem cleanupwatchdog_ids {text : List Char} {ids : List Nat} (force : Bool) (env : Nat → HypercallEnv) (now : Nat)
    (t : WatchdogTimers) (hids : idsOfFile text = some ids) :
    cleanupwatchdog force env now (some text) t = disableIds env now t ids 0 := by
  unfold cleanupwatchdog
  dsimp only
  rw [hids]

/-- Over any file and whatever the hypercalls meet, the command never sets a timer: it stops those of the ids listed, in
their order, up to the first that it cannot stop, and succeeds exactly when there is none such. If nothing is in the way of
the hypercalls, that one is not active any more, and what is listed behind it stays as it is. -/
theorem cleanup_stops_in_order (force : Bool) (env : Nat → HypercallEnv) (now : Nat) (text : List Char)
    (t : WatchdogTimers) :
    (idsOfFile text = none → cleanupwatchdog force env now (some text) t = (.invalidParameter, t)) ∧
      ∀ ids, idsOfFile text = some ids → ∃ stopped rest, ids = stopped ++ rest ∧ t.Stoppable stopped ∧
        (cleanupwatchdog force env now (some text) t).2 = t.stopAll stopped ∧
        ((cleanupwatchdog force env now (some text) t).1 = .success ↔ rest = []) ∧
        ((∀ k, (env k).clear = true) → ∀ id ∈ rest.head?, id ≠ 0 ∧ (t.stopAll stopped).expires id = none ∧
          (cleanupwatchdog force env now (some text) t).1 = .internalBug) := by
  constructor
  · intro hnone
    unfold cleanupwatchdog
    dsimp only
    rw [hnone]
  · intro ids hids
    rw [cleanupwatchdog_ids force env now t hids]
    exact disableIds_spec env now ids 0 t

end Xha
