/-
How the State-File is accessed (statefileio.c). `sf_read` goes on reading until the length, rounded up to whole I/O
units, is full, and never ends where the file ends before that (`sf_read_ends_iff`): each turn moves the position by
what it reads, and at the end of the file that is nothing. `sf_write` writes once, and takes any count for success.
-/
import Xha.StateFile.Thread
import Xha.Lib.While
import Xha.Lib.Region

namespace Xha

open Region While

/-! ## The calls -/

/-- `IOUNIT`. -/
def ioUnit : Nat := 512

/-- `_roundup`. -/
def roundUp (num div : Nat) : Nat := (num + div - 1) / div * div

/-- How the calls on a descriptor go. A `read` fails or returns up to that many bytes and one more, as far as the file
goes; a `write` fails or writes up to that many bytes. -/
structure SfDescriptor where
  seeks : Bool
  reads : Nat → Option Nat
  writes : Option Nat

/-- A call that may not have returned yet, or has failed an assertion. -/
inductive SfCall (α : Type)
  | running
  | aborted
  | returned (a : α)
  deriving DecidableEq

def SfCall.bind {α β : Type} : SfCall α → (α → SfCall β) → SfCall β
  | running, _ => running
  | aborted, _ => aborted
  | returned a, f => f a

/-- What is known of a loop after some turns. -/
def SfCall.ofLoop {α : Type} : Option α → SfCall α
  | none => running
  | some a => returned a

theorem SfCall.ofLoop_returned {α : Type} {o : Option α} {a : α} : SfCall.ofLoop o = .returned a ↔ o = some a := by
  cases o <;> simp [SfCall.ofLoop]

/-- The loop of `sf_read`: how often it has called `read`, the position in the file, the length that is left, and what
is in the buffer. -/
structure ReadLoop where
  calls : Nat
  position : Nat
  length : Nat
  buffer : List Byte

namespace SfDescriptor

variable (d : SfDescriptor) (file : List Byte)

def readTurn (s : ReadLoop) : ReadLoop ⊕ (SfStatus × List Byte) :=
  if s.length = 0 then .inr (.success, s.buffer)
  else match d.reads s.calls with
    | none => .inr (.ioError, s.buffer)
    | some most =>
      let n := min (most + 1) (min s.length (file.length - s.position))
      .inl ⟨s.calls + 1, s.position + n, s.length - n, s.buffer ++ slice file s.position n⟩

/-- `sf_read` into an empty buffer. -/
def sfRead (length : Nat) (offset : Int) (fuel : Nat) : SfCall (SfStatus × List Byte) :=
  if offset % ioUnit ≠ 0 then .aborted
  else if d.seeks = false ∨ offset < 0 then .returned (.ioError, [])
  else .ofLoop (run (d.readTurn file) fuel ⟨0, offset.toNat, roundUp length ioUnit, []⟩)

/-- `sf_write` from a buffer: the status, and the file behind it. -/
def sfWrite (buffer : List Byte) (length : Nat) (offset : Int) : SfCall (SfStatus × List Byte) :=
  if offset % ioUnit ≠ 0 then .aborted
  else if d.seeks = false ∨ offset < 0 then .returned (.ioError, file)
  else match d.writes with
    | none => .returned (.ioError, file)
    | some n => .returned (.success, write 0 file offset.toNat (buffer.take (min n (roundUp length ioUnit))))

/-! ## The loop of `sf_read` -/

/-- The buffer holds what the file has up to the position. -/
structure Filling (pos len : Nat) (s : ReadLoop) : Prop where
  le : s.length ≤ len
  position : s.position = pos + (len - s.length)
  buffer : s.buffer = slice file pos (len - s.length)
  full : s.buffer.length = len - s.length

variable {d file} {pos len : Nat} {s t : ReadLoop}

theorem Filling.start : Filling file pos len ⟨0, pos, len, []⟩ := by
  constructor <;> simp [slice]

theorem Filling.turn (h : Filling file pos len s) (ht : d.readTurn file s = .inl t) :
    Filling file pos len t ∧ t.calls = s.calls + 1 ∧
      ∃ most, d.reads s.calls = some most ∧ t.length = s.length - min (most + 1) (min s.length (file.length - s.position)) := by
  obtain ⟨hle, hposition, hbuffer, hfull⟩ := h
  unfold readTurn at ht
  split at ht
  · cases ht
  · cases hread : d.reads s.calls with
    | none => rw [hread] at ht; cases ht
    | some most =>
      simp only [hread, Sum.inl.injEq] at ht
      subst ht
      refine ⟨?_, rfl, most, rfl, rfl⟩
      generalize hn : min (most + 1) (min s.length (file.length - s.position)) = n
      have hrest : len - (s.length - n) = len - s.length + n := by omega
      refine ⟨by dsimp only; omega, by dsimp only; omega, ?_, ?_⟩
      · dsimp only
        rw [hbuffer, hposition, slice_add, hrest]
      · dsimp only
        rw [List.length_append, hfull, slice, List.length_take, List.length_drop, hrest]
        omega

/-- Success is only returned with a full buffer, and an error only after one. -/
theorem returns_success {status : SfStatus} {buffer : List Byte}
    (h : Returns (d.readTurn file) ⟨0, pos, len, []⟩ (status, buffer)) :
    (status = .success ∧ buffer = slice file pos len ∧ buffer.length = len) ∨ status = .ioError ∧ ∃ k, d.reads k = none := by
  obtain ⟨s, hs, hend⟩ := h.inv (Filling file pos len) Filling.start fun _ _ hs ht => (hs.turn ht).1
  unfold readTurn at hend
  split at hend
  · rename_i hzero
    cases hend
    have hall : len - s.length = len := by omega
    left
    refine ⟨rfl, ?_, ?_⟩
    · rw [hs.buffer, hall]
    · rw [hs.full, hall]
  · cases hread : d.reads s.calls with
    | none =>
      rw [hread] at hend
      cases hend
      exact .inr ⟨rfl, s.calls, hread⟩
    | some most => rw [hread] at hend; cases hend

/-- In a file that is long enough each call that does not fail makes the length smaller. -/
theorem returns_of_le (h : pos + len ≤ file.length) : ∃ b, Returns (d.readTurn file) ⟨0, pos, len, []⟩ b := by
  -- the length that is left is the measure: up to the end of the range each call reads something
  refine exists_returns (Filling file pos len) ReadLoop.length Filling.start fun s t hs ht => ?_
  obtain ⟨hfilling, -, most, -, hlength⟩ := hs.turn ht
  refine ⟨hfilling, ?_⟩
  have hne : s.length ≠ 0 := by
    rintro hzero
    rw [readTurn, if_pos hzero] at ht
    cases ht
  have hposition := hs.position
  have hle := hs.le
  omega

/-- The loop ends with a call that fails, if not before. -/
theorem returns_of_error {k : Nat} (h : d.reads k = none) : ∃ b, Returns (d.readTurn file) ⟨0, pos, len, []⟩ b := by
  refine exists_returns (fun s => Filling file pos len s ∧ s.calls ≤ k) (fun s => k - s.calls) ⟨Filling.start, Nat.zero_le _⟩
    fun s t hs ht => ?_
  obtain ⟨hfilling, hcalls, most, hread, -⟩ := hs.1.turn ht
  have hlt : s.calls < k := by
    apply lt_of_le_of_ne hs.2
    rintro rfl
    rw [h] at hread
    cases hread
  exact ⟨⟨hfilling, by omega⟩, by omega⟩

/-- Otherwise there is always something left to read. -/
theorem run_eq_none_of_short (hlen : len ≠ 0) (hshort : file.length < pos + len) (hreads : ∀ k, d.reads k ≠ none) (fuel : Nat) :
    run (d.readTurn file) fuel ⟨0, pos, len, []⟩ = none := by
  refine run_eq_none (Filling file pos len) Filling.start (fun s hs => ?_) fuel
  -- with nothing left the buffer would hold bytes from behind the end of the file
  have hleft : s.length ≠ 0 := by
    intro hzero
    have hall : len - s.length = len := by omega
    have hfull := hs.full
    rw [hs.buffer, hall, length_slice_eq_iff] at hfull
    omega
  obtain ⟨most, hread⟩ := Option.ne_none_iff_exists'.1 (hreads s.calls)
  have hturn := hs.turn (d := d) (t := ⟨s.calls + 1, _, _, _⟩) (by rw [readTurn, if_neg hleft, hread])
  exact ⟨_, by rw [readTurn, if_neg hleft, hread], hturn.1⟩

/-! ## `sf_read` -/

theorem sfRead_eq {length : Nat} {offset : Int} (halign : ¬offset % ioUnit ≠ 0) (hseek : ¬(d.seeks = false ∨ offset < 0))
    (fuel : Nat) : d.sfRead file length offset fuel =
      .ofLoop (run (d.readTurn file) fuel ⟨0, offset.toNat, roundUp length ioUnit, []⟩) := by
  rw [sfRead, if_neg halign, if_neg hseek]

/-- `sf_read` ends, and with success only when the buffer is full, exactly in these cases: it does not get to reading,
there is nothing to read, the file goes on up to the end of the range, or a `read` fails. -/
theorem sf_read_ends_iff (d : SfDescriptor) (file : List Byte) (length : Nat) (offset : Int) :
    ((∃ fuel, d.sfRead file length offset fuel ≠ .running) ∧
      ∀ fuel buffer, d.sfRead file length offset fuel = .returned (.success, buffer) →
        buffer.length = roundUp length ioUnit ∧ buffer = slice file offset.toNat (roundUp length ioUnit)) ↔
    offset % ioUnit ≠ 0 ∨ d.seeks = false ∨ offset < 0 ∨ roundUp length ioUnit = 0 ∨
      offset.toNat + roundUp length ioUnit ≤ file.length ∨ ∃ k, d.reads k = none := by
  by_cases halign : offset % ioUnit ≠ 0
  · simp [sfRead, halign]
  by_cases hseek : d.seeks = false ∨ offset < 0
  · refine iff_of_true ⟨⟨0, ?_⟩, ?_⟩ (.inr (or_assoc.1 (.inl hseek)))
    · rw [sfRead, if_neg halign, if_pos hseek]
      exact nofun
    · intro fuel buffer h
      rw [sfRead, if_neg halign, if_pos hseek] at h
      cases h
  rw [or_iff_right halign, ← or_assoc, or_iff_right hseek]
  have hloop : ∀ fuel, d.sfRead file length offset fuel =
      .ofLoop (run (d.readTurn file) fuel ⟨0, offset.toNat, roundUp length ioUnit, []⟩) := sfRead_eq halign hseek
  generalize roundUp length ioUnit = len at hloop ⊢
  generalize offset.toNat = pos at hloop ⊢
  constructor
  · rintro ⟨⟨fuel, hends⟩, -⟩
    by_contra hcond
    obtain ⟨hlen, hshort, hreads⟩ : len ≠ 0 ∧ file.length < pos + len ∧ ∀ k, d.reads k ≠ none := by
      simpa only [not_or, not_le, not_exists] using hcond
    rw [hloop, run_eq_none_of_short hlen hshort hreads] at hends
    exact hends rfl
  · intro hcond
    obtain ⟨b, fuel, hfuel⟩ : ∃ b, Returns (d.readTurn file) ⟨0, pos, len, []⟩ b := by
      rcases hcond with rfl | hle | ⟨k, hk⟩
      · exact ⟨_, returns_inr rfl⟩
      · exact returns_of_le hle
      · exact returns_of_error hk
    refine ⟨⟨fuel, by rw [hloop, hfuel]; exact nofun⟩, fun fuel' buffer h => ?_⟩
    rw [hloop] at h
    rcases returns_success ⟨fuel', SfCall.ofLoop_returned.1 h⟩ with ⟨-, hbuffer, hlength⟩ | ⟨hstatus, -⟩
    · exact ⟨hlength, hbuffer⟩
    · cases hstatus

/-- A State-File that ends behind its global section: `sf_read` of the record of host 0 never returns. -/
theorem truncated_file_is_read_forever :
    ¬∃ fuel, sfRead ⟨true, fun _ => some 4095, some 4096⟩ (List.replicate 4096 0) 632 4096 fuel ≠ .running := by
  rintro ⟨fuel, hends⟩
  apply hends
  have hshort : (List.replicate 4096 (0 : Byte)).length < (4096 : Int).toNat + roundUp 632 ioUnit := by
    rw [List.length_replicate]
    decide
  rw [sfRead_eq (by decide) (by decide), run_eq_none_of_short (by decide) hshort fun _ => Option.some_ne_none _]
  rfl

/-! ## Calls that do not fail -/

/-- `lseek` and `read` do not fail. -/
structure Reads (d : SfDescriptor) : Prop where
  seeks : d.seeks = true
  reads : ∀ k, d.reads k ≠ none

/-- `lseek` does not fail, and `write` writes `len` bytes. -/
structure WritesAll (d : SfDescriptor) (len : Nat) : Prop where
  seeks : d.seeks = true
  writes : ∃ n, len ≤ n ∧ d.writes = some n

section

variable {length offset : Nat}

theorem not_misaligned (h : offset % ioUnit = 0) : ¬(offset : Int) % ioUnit ≠ 0 := by
  rw [not_not, ← Int.natCast_emod, h]
  rfl

theorem not_unseeked (h : d.seeks = true) : ¬(d.seeks = false ∨ (offset : Int) < 0) := by
  rw [h]
  rintro (hfalse | hneg)
  · cases hfalse
  · omega

/-- A read of a range of the file. -/
theorem sfRead_returns (h : d.Reads) (halign : offset % ioUnit = 0) (hlen : offset + roundUp length ioUnit ≤ file.length) :
    ∃ fuel, d.sfRead file length offset fuel = .returned (.success, slice file offset (roundUp length ioUnit)) := by
  obtain ⟨⟨status, buffer⟩, hreturns⟩ := returns_of_le (d := d) hlen
  rcases returns_success hreturns with ⟨rfl, rfl, -⟩ | ⟨-, k, hk⟩
  · obtain ⟨fuel, hfuel⟩ := hreturns
    refine ⟨fuel, ?_⟩
    rw [sfRead_eq (not_misaligned halign) (not_unseeked h.seeks), Int.toNat_natCast, hfuel]
    rfl
  · exact absurd hk (h.reads k)

/-- Whatever a read returns that does not fail, it is the whole range, which is in the file. -/
theorem sfRead_returned (h : d.Reads) (halign : offset % ioUnit = 0) (hpos : roundUp length ioUnit ≠ 0) {fuel : Nat}
    {result : SfStatus × List Byte} (hr : d.sfRead file length offset fuel = .returned result) :
    result = (.success, slice file offset (roundUp length ioUnit)) ∧ offset + roundUp length ioUnit ≤ file.length := by
  obtain ⟨status, buffer⟩ := result
  rw [sfRead_eq (not_misaligned halign) (not_unseeked h.seeks), Int.toNat_natCast, SfCall.ofLoop_returned] at hr
  rcases returns_success ⟨fuel, hr⟩ with ⟨rfl, rfl, hfull⟩ | ⟨-, k, hk⟩
  · exact ⟨rfl, (length_slice_eq_iff.1 hfull).resolve_left hpos⟩
  · exact absurd hk (h.reads k)

/-- How many bytes the `write` of a write takes, if it is reached and does not fail. -/
def taken (d : SfDescriptor) : Option Nat := if d.seeks then d.writes else none

/-- A write that takes nothing fails; any other is a success. -/
theorem sfWrite_eq (halign : offset % ioUnit = 0) (buffer : List Byte) :
    d.sfWrite file buffer length offset = d.taken.elim (.returned (.ioError, file)) fun n =>
      .returned (.success, write 0 file offset (buffer.take (min n (roundUp length ioUnit)))) := by
  rw [sfWrite, if_neg (not_misaligned halign), taken]
  cases hseeks : d.seeks with
  | false =>
    rw [if_pos (.inl rfl)]
    rfl
  | true =>
    have hseek : ¬(true = false ∨ (offset : Int) < 0) := hseeks ▸ not_unseeked hseeks
    rw [if_neg hseek, Int.toNat_natCast]
    cases d.writes <;> rfl

end

end SfDescriptor

end Xha
