/-
The loop of `xapimon` (xapi_mon.c) that reads what the health-check child writes to its pipe. It keeps the first bytes
and never writes outside `err_string`, but no test ends it at the deadline: past it `select` gets a timeout of zero,
and the loop goes on for as long as there is something to read. What it should do it does exactly if each chunk has
been read in time (`stops_at_deadline_iff`): by induction on the turns, `err_string` is what has been read (`After`).
-/
import Mathlib.Logic.Relation
import Xha.Com
import Xha.Lib.Region
import Xha.Lib.While

namespace Xha

open Region While

/-! ## The loop -/

/-- `XAPI_MAX_ERROR_STRING_LEN`. -/
def xapiMaxErrorStringLen : Nat := 100

/-- A buffer of `XAPI_MAX_ERROR_STRING_LEN + 1` bytes, whatever is in it. -/
structure ErrString where
  bytes : List Byte
  length_eq : bytes.length = xapiMaxErrorStringLen + 1

/-- Bytes written into the buffer, if they have a place in it. -/
def ErrString.store (e : ErrString) (pos : Nat) (new : List Byte) : Option ErrString :=
  if h : pos + new.length ≤ xapiMaxErrorStringLen + 1 then
    some ⟨patch e.bytes pos new, by rw [length_patch (by rw [e.length_eq]; omega), e.length_eq]; omega⟩
  else none

/-- What the loop gets from the pipe and the clock in each turn: whether `select` with that timeout finds the pipe
readable, what `read` returns (nothing at the end and for an error), and the time then. -/
structure HealthCheckPipe where
  select : Nat → MtcClock → Bool
  read : Nat → List Byte
  getms : Nat → MtcClock
  read_le : ∀ turn, (read turn).length ≤ xapiMaxErrorStringLen + 1

/-- The loop: the turns it has made, its `now`, and `err_string` with the offset of `perr_string`. -/
structure PipeLoop where
  turn : Nat
  now : MtcClock
  errString : ErrString
  offset : Nat

/-- The loop is left with `err_string`, or has written outside it. -/
inductive PipeExit
  | left (turn : Nat) (errString : ErrString)
  | overrun

/-- The timeout of `select`: the product is one of 32 bits. -/
def selectTimeout (timeout : MtcU32) (start now : MtcClock) : MtcClock :=
  if ((timeout * 1000).toNat : MtcClock) - (now - start) < 0 then 0 else ((timeout * 1000).toNat : MtcClock) - (now - start)

/-- The bytes that have been read go to `err_string`, as far as there is room, and a terminator behind them. -/
def PipeLoop.keep (s : PipeLoop) (readbuf : List Byte) : Option PipeLoop :=
  if s.offset < xapiMaxErrorStringLen then
    let n := min readbuf.length (xapiMaxErrorStringLen - s.offset)
    (s.errString.store s.offset (readbuf.take n)).bind fun e =>
      (e.store (s.offset + n) [0]).map fun e => { s with errString := e, offset := s.offset + n }
  else some s

/-- The end of the loop: `*(perr_string) = '\0'`. -/
def PipeLoop.leave (s : PipeLoop) : PipeExit :=
  match s.errString.store s.offset [0] with
  | some e => .left s.turn e
  | none => .overrun

namespace HealthCheckPipe

variable (pipe : HealthCheckPipe) (timeout : MtcU32) (start : MtcClock)

/-- A turn of the loop, for `TXapi` seconds. -/
def pipeTurn (s : PipeLoop) : PipeLoop ⊕ PipeExit :=
  if pipe.select s.turn (selectTimeout timeout start s.now) then
    if pipe.read s.turn ≠ [] then
      match s.keep (pipe.read s.turn) with
      | some s => .inl { s with turn := s.turn + 1, now := pipe.getms s.turn }
      | none => .inr .overrun
    else .inr s.leave
  else .inr s.leave

/-- The loop before its first turn, with whatever is on the stack. -/
def enter (errString : ErrString) : PipeLoop := ⟨0, start, errString, 0⟩

/-- One state follows the other in the loop. -/
def Next (s t : PipeLoop) : Prop := pipe.pipeTurn timeout start s = .inl t

/-! ## What the loop should do -/

/-- The time at the start of a turn. -/
def clockAt : Nat → MtcClock
  | 0 => start
  | turn + 1 => pipe.getms turn

/-- In this turn `select` finds the pipe readable and `read` returns something. -/
def Delivers (turn : Nat) : Prop :=
  pipe.select turn (selectTimeout timeout start (pipe.clockAt start turn)) = true ∧ pipe.read turn ≠ []

/-- What has been read in the first turns. -/
def chunks (turns : Nat) : List Byte := (List.range turns).flatMap pipe.read

/-- No further turn starts at the deadline or later, nothing is written outside `err_string`, and at the end it has
what has been read, cut at `XAPI_MAX_ERROR_STRING_LEN` bytes, and a terminator. -/
structure StopsAtDeadline (errString : ErrString) : Prop where
  turns : ∀ s, Relation.TransGen (pipe.Next timeout start) (enter start errString) s → s.now - start < 1000 * timeout.toNat
  inside : ¬ Returns (pipe.pipeTurn timeout start) (enter start errString) .overrun
  message : ∀ turn e, Returns (pipe.pipeTurn timeout start) (enter start errString) (.left turn e) →
    ((pipe.chunks turn).take xapiMaxErrorStringLen ++ [0]) <+: e.bytes

/-! ## The turns -/

end HealthCheckPipe

theorem ErrString.store_eq (e : ErrString) (pos : Nat) (new : List Byte) (h : pos + new.length ≤ xapiMaxErrorStringLen + 1) :
    ∃ e', e.store pos new = some e' ∧ e'.bytes = patch e.bytes pos new := by
  unfold ErrString.store
  rw [dif_pos h]
  exact ⟨_, rfl, rfl⟩

/-- `err_string` up to `perr_string` is what has been read, cut. -/
structure PipeLoop.Keeps (s : PipeLoop) (read : List Byte) : Prop where
  offset : s.offset = (read.take xapiMaxErrorStringLen).length
  bytes : s.errString.bytes.take s.offset = read.take xapiMaxErrorStringLen

theorem PipeLoop.Keeps.offset_le {s : PipeLoop} {read : List Byte} (h : s.Keeps read) :
    s.offset ≤ xapiMaxErrorStringLen := by
  rw [h.offset]
  exact List.length_take_le ..

theorem PipeLoop.Keeps.keep {s : PipeLoop} {read : List Byte} (h : s.Keeps read) (readbuf : List Byte) :
    ∃ t, s.keep readbuf = some t ∧ t.turn = s.turn ∧ t.Keeps (read ++ readbuf) := by
  have hlen := s.errString.length_eq
  have hoffset := h.offset
  rw [List.length_take] at hoffset
  unfold PipeLoop.keep
  by_cases hroom : s.offset < xapiMaxErrorStringLen
  · -- all that was read before is there, and the new bytes go behind it
    have hread : read.take xapiMaxErrorStringLen = read := List.take_of_length_le (by omega)
    have hbytes := h.bytes
    rw [hread] at hbytes
    rw [if_pos hroom]
    dsimp only
    generalize hn : min readbuf.length (xapiMaxErrorStringLen - s.offset) = n
    have htake : (readbuf.take n).length = n := by
      rw [List.length_take]
      omega
    have hall : (read ++ readbuf).take xapiMaxErrorStringLen = read ++ readbuf.take n := by
      rw [List.take_append, hread, ← hn]
      congr 1
      rcases Nat.le_total readbuf.length (xapiMaxErrorStringLen - s.offset) with hle | hle
      · rw [Nat.min_eq_left hle, List.take_length, List.take_of_length_le (by omega)]
      · rw [Nat.min_eq_right hle]
        congr 1
        omega
    obtain ⟨e, he, hwritten⟩ := s.errString.store_eq s.offset (readbuf.take n) (by omega)
    obtain ⟨e', he', hended⟩ := e.store_eq (s.offset + n) [0] (by rw [List.length_singleton]; omega)
    rw [he, Option.bind_some, he', Option.map_some]
    refine ⟨_, rfl, rfl, ?_, ?_⟩
    · rw [hall, List.length_append, htake]
      dsimp only
      omega
    · have hkept := @take_patch _ s.errString.bytes s.offset (readbuf.take n) (by omega)
      rw [htake] at hkept
      dsimp only
      rw [hended, take_patch_before (by rw [e.length_eq]; omega) le_rfl, hwritten, hkept, hbytes, hall]
  · rw [if_neg hroom]
    have hall : (read ++ readbuf).take xapiMaxErrorStringLen = read.take xapiMaxErrorStringLen :=
      List.take_append_of_le_length (by omega)
    refine ⟨s, rfl, rfl, ?_, ?_⟩
    · rw [hall]
      exact h.offset
    · rw [hall]
      exact h.bytes

/-- At the end of the loop the terminator goes behind what has been kept. -/
theorem PipeLoop.Keeps.leave {s : PipeLoop} {read : List Byte} (h : s.Keeps read) :
    ∃ e, s.leave = .left s.turn e ∧ (read.take xapiMaxErrorStringLen ++ [0]) <+: e.bytes := by
  have hlen := s.errString.length_eq
  have hle := h.offset_le
  obtain ⟨e, he, hbytes⟩ := s.errString.store_eq s.offset [0] (by rw [List.length_singleton]; omega)
  refine ⟨e, by rw [PipeLoop.leave, he], ?_⟩
  rw [hbytes, patch, h.bytes]
  exact List.prefix_append ..

namespace HealthCheckPipe

variable {pipe : HealthCheckPipe} {timeout : MtcU32} {start : MtcClock}

/-- The loop after `turns` turns, each of which has delivered something. -/
structure After (pipe : HealthCheckPipe) (timeout : MtcU32) (start : MtcClock) (turns : Nat) (s : PipeLoop) : Prop where
  turn : s.turn = turns
  now : s.now = pipe.clockAt start turns
  delivers : ∀ turn < turns, pipe.Delivers timeout start turn
  keeps : s.Keeps (pipe.chunks turns)

theorem After.enter (errString : ErrString) : After pipe timeout start 0 (enter start errString) :=
  ⟨rfl, rfl, fun _ h => absurd h (Nat.not_lt_zero _), rfl, rfl⟩

/-- What a turn does: it goes on when the pipe delivers, and else the loop ends with what it has. -/
theorem After.pipeTurn {turns : Nat} {s : PipeLoop} (h : After pipe timeout start turns s) :
    (pipe.Delivers timeout start turns ∧
      ∃ t, pipe.pipeTurn timeout start s = .inl t ∧ After pipe timeout start (turns + 1) t) ∨
    (¬ pipe.Delivers timeout start turns ∧ ∃ e, pipe.pipeTurn timeout start s = .inr (.left turns e) ∧
      (pipe.chunks turns).take xapiMaxErrorStringLen ++ [0] <+: e.bytes) := by
  obtain ⟨rfl, hnow, hdelivers, hkeeps⟩ := h
  obtain ⟨e, hleave, hprefix⟩ := hkeeps.leave
  unfold HealthCheckPipe.pipeTurn
  rw [hleave, hnow]
  by_cases hselect : pipe.select s.turn (selectTimeout timeout start (pipe.clockAt start s.turn)) = true
  · by_cases hread : pipe.read s.turn ≠ []
    · left
      obtain ⟨t, ht, hturn, hkept⟩ := hkeeps.keep (pipe.read s.turn)
      rw [if_pos hselect, if_pos hread, ht]
      refine ⟨⟨hselect, hread⟩, _, rfl, by rw [hturn], ?_, ?_, ?_⟩
      · dsimp only
        rw [hturn]
        rfl
      · rintro turn hlt
        rcases Nat.lt_succ_iff_lt_or_eq.1 hlt with hlt | rfl
        · exact hdelivers turn hlt
        · exact ⟨hselect, hread⟩
      · have hchunks : pipe.chunks (s.turn + 1) = pipe.chunks s.turn ++ pipe.read s.turn := by
          simp [chunks, List.range_succ]
        rw [hchunks]
        exact ⟨hkept.offset, hkept.bytes⟩
    · right
      rw [if_pos hselect, if_neg hread]
      exact ⟨fun hd => hread hd.2, e, rfl, hprefix⟩
  · right
    rw [if_neg hselect]
    exact ⟨fun hd => hselect hd.1, e, rfl, hprefix⟩

theorem After.next {turns : Nat} {s t : PipeLoop} (h : After pipe timeout start turns s)
    (hn : pipe.Next timeout start s t) : After pipe timeout start (turns + 1) t := by
  rcases h.pipeTurn with ⟨-, u, hturn, hafter⟩ | ⟨-, e, hturn, -⟩
  · rw [Next, hturn] at hn
    cases hn
    exact hafter
  · rw [Next, hturn] at hn
    cases hn

/-- Every state of the loop comes after some turns. -/
theorem after_of_reached {errString : ErrString} {s : PipeLoop}
    (h : Relation.ReflTransGen (pipe.Next timeout start) (enter start errString) s) :
    ∃ turns, After pipe timeout start turns s := by
  induction h with
  | refl => exact ⟨0, .enter errString⟩
  | tail _ hn ih =>
    obtain ⟨turns, ht⟩ := ih
    exact ⟨turns + 1, ht.next hn⟩

/-- The loop makes as many turns as the pipe delivers. -/
theorem reached_of_delivers (errString : ErrString) {turns : Nat}
    (h : ∀ turn < turns, pipe.Delivers timeout start turn) :
    ∃ s, Relation.ReflTransGen (pipe.Next timeout start) (enter start errString) s ∧ After pipe timeout start turns s := by
  induction turns with
  | zero => exact ⟨_, .refl, .enter errString⟩
  | succ turns ih =>
    obtain ⟨s, hreached, hs⟩ := ih fun turn hlt => h turn (Nat.lt_succ_of_lt hlt)
    rcases hs.pipeTurn with ⟨-, t, hturn, hafter⟩ | ⟨hnot, -⟩
    · exact ⟨t, hreached.tail hturn, hafter⟩
    · exact absurd (h turns (Nat.lt_succ_self _)) hnot

/-- The loop is left in a turn that finds nothing, and never writes outside `err_string`. -/
theorem returned {errString : ErrString} {exit : PipeExit}
    (h : Returns (pipe.pipeTurn timeout start) (enter start errString) exit) :
    ∃ turns e, exit = .left turns e ∧ ¬ pipe.Delivers timeout start turns ∧
      (pipe.chunks turns).take xapiMaxErrorStringLen ++ [0] <+: e.bytes := by
  obtain ⟨s, ⟨turns, hs⟩, hexit⟩ := h.inv (fun s => ∃ turns, After pipe timeout start turns s) ⟨0, .enter errString⟩
    fun s t hs hturn => hs.elim fun turns hs => ⟨turns + 1, hs.next hturn⟩
  rcases hs.pipeTurn with ⟨-, u, hu, -⟩ | ⟨hnot, e, he, hprefix⟩
  · rw [hu] at hexit
    cases hexit
  · rw [he] at hexit
    cases hexit
    exact ⟨turns, e, rfl, hnot, hprefix⟩

/-- The loop ends, deadline or not, exactly when some turn finds nothing. -/
theorem returns_iff (errString : ErrString) :
    (∃ exit, Returns (pipe.pipeTurn timeout start) (enter start errString) exit) ↔
      ∃ turn, ¬ pipe.Delivers timeout start turn := by
  constructor
  · rintro ⟨exit, h⟩
    obtain ⟨turns, e, -, hnot, -⟩ := returned h
    exact ⟨turns, hnot⟩
  · rintro ⟨last, hlast⟩
    -- the loop does not get past that turn
    refine exists_returns (fun s => ∃ turns ≤ last, After pipe timeout start turns s) (fun s => last - s.turn)
      ⟨0, Nat.zero_le _, .enter errString⟩ ?_
    rintro s t ⟨turns, hle, hs⟩ hturn
    have hne : turns ≠ last := by
      rintro rfl
      rcases hs.pipeTurn with ⟨hd, -⟩ | ⟨-, e, he, -⟩
      · exact hlast hd
      · rw [he] at hturn
        cases hturn
    have ht := hs.next hturn
    refine ⟨⟨turns + 1, by omega, ht⟩, ?_⟩
    rw [ht.turn, hs.turn]
    omega

theorem StopsAtDeadline.read_in_time {errString : ErrString} (h : pipe.StopsAtDeadline timeout start errString) {turn : Nat}
    (hdelivers : ∀ earlier ≤ turn, pipe.Delivers timeout start earlier) :
    pipe.getms turn - start < 1000 * timeout.toNat := by
  obtain ⟨s, hreached, hs⟩ := reached_of_delivers errString fun earlier hlt => hdelivers earlier (Nat.le_of_lt_succ hlt)
  have hfurther : Relation.TransGen (pipe.Next timeout start) (enter start errString) s := by
    rcases Relation.reflTransGen_iff_eq_or_transGen.1 hreached with rfl | hfurther
    · exact absurd hs.turn.symm (Nat.succ_ne_zero turn)
    · exact hfurther
  have hnow := h.turns s hfurther
  rw [hs.now] at hnow
  exact hnow

/-- The loop does what it should exactly when each chunk that it reads has been read before the deadline. -/
theorem stops_at_deadline_iff (pipe : HealthCheckPipe) (timeout : MtcU32) (start : MtcClock) (errString : ErrString) :
    pipe.StopsAtDeadline timeout start errString ↔
      ∀ turn, (∀ earlier ≤ turn, pipe.Delivers timeout start earlier) → pipe.getms turn - start < 1000 * timeout.toNat := by
  constructor
  · rintro h turn hdelivers
    exact h.read_in_time hdelivers
  · rintro h
    constructor
    · rintro s hfurther
      obtain ⟨u, hreached, hn⟩ := Relation.TransGen.tail'_iff.1 hfurther
      obtain ⟨turns, hu⟩ := after_of_reached hreached
      have hs := hu.next hn
      rw [hs.now]
      exact h turns fun earlier hle => hs.delivers earlier (Nat.lt_succ_of_le hle)
    · rintro hexit
      obtain ⟨turns, e, he, -⟩ := returned hexit
      cases he
    · rintro turn e hexit
      obtain ⟨turns, e', he, -, hprefix⟩ := returned hexit
      cases he
      exact hprefix

/-- A child that fills the pipe faster than the loop empties it: there is always a whole buffer to read, one each
millisecond. -/
def flooding : HealthCheckPipe where
  select _ _ := true
  read _ := List.replicate (xapiMaxErrorStringLen + 1) 0x78
  getms turn := turn + 1
  read_le _ := by rw [List.length_replicate]

/-- A buffer of zeros. -/
def noError : ErrString := ⟨List.replicate (xapiMaxErrorStringLen + 1) 0, List.length_replicate ..⟩

/-- With a timeout of 10 s the loop reads on after 10 s, and for ever. -/
theorem flooding_child_is_read_forever :
    ¬ flooding.StopsAtDeadline 10 0 noError ∧ ∀ fuel, run (flooding.pipeTurn 10 0) fuel (enter 0 noError) = none := by
  have hdelivers : ∀ turn, flooding.Delivers 10 0 turn := fun turn => ⟨rfl, List.cons_ne_nil 0x78 _⟩
  constructor
  · intro h
    -- the last of ten thousand chunks is read after exactly 10 s
    have hlate : flooding.getms 9999 - 0 < 1000 * (10 : MtcU32).toNat := h.read_in_time fun turn _ => hdelivers turn
    have hnow : flooding.getms 9999 = 10000 := rfl
    rw [hnow] at hlate
    exact absurd hlate (by decide)
  · intro fuel
    cases hrun : run (flooding.pipeTurn 10 0) fuel (enter 0 noError) with
    | none => rfl
    | some exit =>
      obtain ⟨turn, hnot⟩ := (returns_iff noError).1 ⟨exit, fuel, hrun⟩
      exact absurd (hdelivers turn) hnot

end HealthCheckPipe

end Xha
