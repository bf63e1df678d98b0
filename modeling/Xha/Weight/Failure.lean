/-
`weightctl set` call by call (weightctl.c, weightio.c). The file is truncated and written again line by line in place:
a failure before that leaves it as it was, and one of a `write` leaves what has been written of the new table
(`failed_weight_set`).
-/
import Xha.Lib.Region
import Xha.Lib.While
import Xha.Weight.File

namespace Xha

open Region While

/-! ## The calls -/

/-- How the calls on the weight file go. A `read` fails or returns up to that many characters and one more, as far as the
file goes; a `write` fails or writes up to that many characters. -/
structure WeightCalls where
  opens : Bool
  locks : Bool
  reads : Nat → Option Nat
  truncates : Bool
  writes : Nat → Option Nat

/-- The loop of `read_hostweight_file`: how often it has called `read`, and the buffer. -/
structure WeightReading where
  calls : Nat
  buf : List Char

/-- The loops of `write_hostweight_file`: how often they have called `write`, the position in the file, and the file. -/
structure WeightWriting where
  calls : Nat
  position : Nat
  file : List Char

namespace WeightCalls

variable (c : WeightCalls)

def readTurn (file : List Char) (s : WeightReading) : WeightReading ⊕ Option (List Char) :=
  match c.reads s.calls with
  | none => .inr none
  | some most =>
    let len := min (most + 1) (min (maxHostWeightFileSize - s.buf.length) (file.length - s.buf.length))
    let buf := s.buf ++ slice file s.buf.length len
    if len = 0 ∨ maxHostWeightFileSize ≤ buf.length then .inr (some buf) else .inl ⟨s.calls + 1, buf⟩

/-- The `read`s of `read_hostweight_file`: the buffer, if none fails. -/
def readHostweightFile (file : List Char) (fuel : Nat) : Option (Option (List Char)) :=
  run (c.readTurn file) fuel ⟨0, []⟩

/-- The inner loop of `write_hostweight_file`, with `writelen`. -/
def writeTurn (line : List Char) : WeightWriting × Nat → (WeightWriting × Nat) ⊕ (Bool × WeightWriting)
  | (s, writelen) => match c.writes s.calls with
    | none => .inr (false, s)
    | some most =>
      let len := min most (line.length - writelen)
      let s := ⟨s.calls + 1, s.position + len, patch s.file s.position (slice line writelen len)⟩
      if line.length ≤ writelen + len then .inr (true, s) else .inl (s, writelen + len)

def writeLines (fuel : Nat) : List HostWeight → WeightWriting → Option (Bool × WeightWriting)
  | [], s => some (true, s)
  | e :: rest, s =>
    if e.classname ≠ [] then
      (run (c.writeTurn (printClass e ++ ['\n'])) fuel (s, 0)).bind fun (ok, s) =>
        if ok then writeLines fuel rest s else some (false, s)
    else writeLines fuel rest s

/-- `write_hostweight_file`. -/
def writeHostweightFile (wtable : WeightTable) (file : List Char) (fuel : Nat) : Option (Bool × WeightWriting) :=
  c.writeLines fuel wtable.slots ⟨0, 0, if c.truncates then [] else file⟩

/-- `weight_set`: the exit code and the file it leaves. -/
def weightSet (classname : List Char) (weight : MtcU32) (file : List Char) (fuel : Nat) : Option (MtcExit × List Char) :=
  if maxHostWeightValue < weight.toNat then some (.invalidParameter, file)
  else if classname = builtinHostWeightClassname then some (.invalidParameter, file)
  else if !classname.all isGraph then some (.invalidParameter, file)
  else if !c.opens || !c.locks then some (.systemError, file)
  else (c.readHostweightFile file fuel).bind fun
    | none => some (.systemError, file)
    | some buf => match setHostweightTable (Xha.readHostweightFile buf) (cname classname) weight with
      | none => some (.invalidParameter, file)
      | some wtable => (c.writeHostweightFile wtable file fuel).map fun (ok, s) =>
        (if ok then .success else .systemError, s.file)

/-! ## Reading -/

variable {c} {file : List Char}

theorem append_slice {buf : List Char} (h : buf = file.take buf.length) (len : Nat) :
    buf ++ slice file buf.length len = file.take (buf.length + len) := by
  rw [← take_append_slice, ← h]

/-- The buffer is the file, up to its size. -/
theorem readHostweightFile_eq {fuel : Nat} {buf : List Char} (h : c.readHostweightFile file fuel = some (some buf)) :
    buf = file.take maxHostWeightFileSize := by
  have hturn : ∀ s t : WeightReading, (s.buf = file.take s.buf.length ∧ s.buf.length < maxHostWeightFileSize) →
      c.readTurn file s = .inl t → t.buf = file.take t.buf.length ∧ t.buf.length < maxHostWeightFileSize := by
    rintro s t ⟨hs, -⟩ hturn
    unfold readTurn at hturn
    split at hturn
    · cases hturn
    · dsimp only at hturn
      rw [append_slice hs] at hturn
      split at hturn
      · cases hturn
      · rename_i hgo
        cases hturn
        constructor
        · rw [List.take_eq_take_iff, List.length_take]
          omega
        · exact not_le.1 fun hle => hgo (.inr hle)
  obtain ⟨s, ⟨hs, hlt⟩, hend⟩ := Returns.inv ⟨fuel, h⟩ _ ⟨rfl, by decide⟩ hturn
  unfold readTurn at hend
  split at hend
  · cases hend
  · dsimp only at hend
    rw [append_slice hs] at hend
    split at hend
    · rename_i hstop
      cases hend
      rw [List.length_take] at hstop
      rcases hstop with hzero | hfull
      · rw [hzero, List.take_of_length_le (by omega), List.take_of_length_le (by omega)]
      · congr 1
        omega
    · cases hend

/-! ## Writing -/

/-- `done` has been written from the start of the file on. -/
structure Writing (base done : List Char) (s : WeightWriting) : Prop where
  position : s.position = done.length
  file : s.file = patch base 0 done

variable {base done : List Char} {s t : WeightWriting}

theorem Writing.start (base : List Char) : Writing base [] ⟨0, 0, base⟩ := by
  constructor
  · rfl
  · exact (List.drop_zero (l := base)).symm

theorem Writing.write (h : Writing base done s) (chunk : List Char) (calls : Nat) :
    Writing base (done ++ chunk) ⟨calls, s.position + chunk.length, patch s.file s.position chunk⟩ := by
  constructor
  · rw [h.position, List.length_append]
  · have hpatch := patch_patch (Nat.zero_le base.length) done chunk
    rw [Nat.zero_add] at hpatch
    rw [h.file, h.position, hpatch]

/-- How writing a text on ends: all of it is written, or a `write` fails before that. -/
def Outcome (c : WeightCalls) (base done text : List Char) (ok : Bool) (t : WeightWriting) : Prop :=
  (ok = true ∧ Writing base (done ++ text) t) ∨
    (ok = false ∧ (∃ k, c.writes k = none) ∧ ∃ n < text.length, Writing base (done ++ text.take n) t)

/-- A `write` of a part of a line. -/
theorem Writing.part {line : List Char} {writelen : Nat} (h : Writing base (done ++ line.take writelen) s)
    (most calls : Nat) :
    Writing base (done ++ line.take (writelen + min most (line.length - writelen)))
      ⟨calls, s.position + min most (line.length - writelen),
        patch s.file s.position (slice line writelen (min most (line.length - writelen)))⟩ := by
  have hwrite := h.write (slice line writelen (min most (line.length - writelen))) calls
  have hlength : (slice line writelen (min most (line.length - writelen))).length = min most (line.length - writelen) := by
    rw [slice, List.length_take, List.length_drop]
    omega
  rwa [List.append_assoc, take_append_slice, hlength] at hwrite

theorem writeTurn_outcome {line : List Char} (hline : 0 < line.length) (h : Writing base done s) {fuel : Nat} {ok : Bool}
    (hr : run (c.writeTurn line) fuel (s, 0) = some (ok, t)) : Outcome c base done line ok t := by
  have hturn : ∀ p q : WeightWriting × Nat, (p.2 < line.length ∧ Writing base (done ++ line.take p.2) p.1) →
      c.writeTurn line p = .inl q → q.2 < line.length ∧ Writing base (done ++ line.take q.2) q.1 := by
    rintro ⟨u, writelen⟩ q ⟨-, hu⟩ hturn
    unfold writeTurn at hturn
    dsimp only at hturn
    split at hturn
    · cases hturn
    · split at hturn
      · cases hturn
      · rename_i hgo
        cases hturn
        exact ⟨not_le.1 hgo, hu.part _ _⟩
  obtain ⟨⟨u, writelen⟩, ⟨hlt, hu⟩, hend⟩ := Returns.inv ⟨fuel, hr⟩ _ ⟨hline, by simpa using h⟩ hturn
  unfold writeTurn at hend
  dsimp only at hend
  split at hend
  · rename_i hfail
    cases hend
    exact .inr ⟨rfl, ⟨_, hfail⟩, writelen, hlt, hu⟩
  · rename_i most _
    split at hend
    · rename_i hall
      cases hend
      left
      have hpart := hu.part most (u.calls + 1)
      rw [List.take_of_length_le hall] at hpart
      exact ⟨rfl, hpart⟩
    · cases hend

/-- One text behind the other. -/
theorem Outcome.append {line rest : List Char} {ok : Bool} (h : Outcome c base (done ++ line) rest ok t) :
    Outcome c base done (line ++ rest) ok t := by
  rcases h with ⟨hok, ht⟩ | ⟨hok, hfail, n, hn, ht⟩
  · rw [List.append_assoc] at ht
    exact .inl ⟨hok, ht⟩
  · refine .inr ⟨hok, hfail, line.length + n, ?_, ?_⟩
    · rw [List.length_append]
      omega
    · rw [List.take_length_add_append, ← List.append_assoc]
      exact ht

theorem Outcome.of_failed {line : List Char} (rest : List Char) (h : Outcome c base done line false t) :
    Outcome c base done (line ++ rest) false t := by
  rcases h with ⟨hok, -⟩ | ⟨hok, hfail, n, hn, ht⟩
  · cases hok
  · refine .inr ⟨hok, hfail, n, ?_, ?_⟩
    · rw [List.length_append]
      omega
    · rw [List.take_append_of_le_length hn.le]
      exact ht

theorem writeLines_outcome {slots : List HostWeight} (h : Writing base done s) {fuel : Nat} {ok : Bool}
    (hr : c.writeLines fuel slots s = some (ok, t)) :
    Outcome c base done (slots.flatMap fun e => if e.classname ≠ [] then printClass e ++ ['\n'] else []) ok t := by
  -- what the lines before have written goes into `done`
  induction slots generalizing done s with
  | nil =>
    cases hr
    left
    exact ⟨rfl, by simpa using h⟩
  | cons e rest ih =>
    rw [writeLines] at hr
    rw [List.flatMap_cons]
    split at hr
    · rename_i hname
      rw [if_pos hname]
      obtain ⟨⟨ok', u⟩, hline, hrest⟩ := Option.bind_eq_some_iff.1 hr
      have houtcome := writeTurn_outcome (by simp) h hline
      cases ok' with
      | true =>
        rcases houtcome with ⟨-, hu⟩ | ⟨hok, -⟩
        · exact (ih hu hrest).append
        · cases hok
      | false =>
        cases hrest
        exact houtcome.of_failed _
    · rename_i hname
      rw [if_neg hname]
      exact ih h hr

/-! ## `weight_set` -/

theorem writeHostweightFile_outcome {wtable : WeightTable} {fuel : Nat} {ok : Bool}
    (h : c.writeHostweightFile wtable file fuel = some (ok, t)) :
    Outcome c (if c.truncates then [] else file) [] (Xha.writeHostweightFile wtable) ok t :=
  writeLines_outcome (Writing.start _) h


variable {classname : List Char} {weight : MtcU32} {fuel : Nat} {exit : MtcExit} {file' : List Char}

/-- The weight and the name that `weight_set` does not refuse. -/
def Accepts (classname : List Char) (weight : MtcU32) : Prop :=
  ¬maxHostWeightValue < weight.toNat ∧ classname ≠ builtinHostWeightClassname ∧ ¬(!classname.all isGraph) = true

theorem weightSet_of_not_accepts (c : WeightCalls) (file : List Char) (fuel : Nat) (h : ¬Accepts classname weight) :
    c.weightSet classname weight file fuel = some (.invalidParameter, file) ∧
      Xha.weightSet .success classname weight file = (.invalidParameter, file) := by
  unfold weightSet Xha.weightSet
  by_cases hweight : maxHostWeightValue < weight.toNat
  · simp only [if_pos hweight, and_self]
  by_cases hbuiltin : classname = builtinHostWeightClassname
  · simp only [if_neg hweight, if_pos hbuiltin, and_self]
  have hgraph : (!classname.all isGraph) = true := by
    by_contra hall
    exact h ⟨hweight, hbuiltin, hall⟩
  simp only [if_neg hweight, if_neg hbuiltin, if_pos hgraph, and_self]

theorem weightSet_of_accepts (file : List Char) (h : Accepts classname weight) (io : WeightIo) :
    Xha.weightSet io classname weight file =
      if !io.opened then (.systemError, file)
      else if !io.read then (.systemError, file)
      else match setHostweightTable (Xha.readHostweightFile file) (cname classname) weight with
        | none => (.invalidParameter, file)
        | some wtable => match io.written with
          | none => (.success, Xha.writeHostweightFile wtable)
          | some n => (.systemError, (Xha.writeHostweightFile wtable).take n) :=
  (if_neg h.1).trans ((if_neg h.2.1).trans (if_neg h.2.2))

/-- How `weight_set` returns: with an error and the file as it was, before anything is written, or as the writing of the
new table ends. -/
theorem weightSet_returned (h : c.weightSet classname weight file fuel = some (exit, file')) :
    (exit ≠ .success ∧ file' = file ∧ ∃ io, Xha.weightSet io classname weight file = (exit, file)) ∨
      Accepts classname weight ∧ c.opens = true ∧ c.locks = true ∧ c.readHostweightFile file fuel ≠ some none ∧
        ∃ wtable ok t, setHostweightTable (Xha.readHostweightFile file) (cname classname) weight = some wtable ∧
          Outcome c (if c.truncates then [] else file) [] (Xha.writeHostweightFile wtable) ok t ∧
          exit = (if ok then .success else .systemError) ∧ file' = t.file := by
  by_cases haccepts : Accepts classname weight
  case neg =>
    obtain ⟨hcalls, hset⟩ := weightSet_of_not_accepts c file fuel haccepts
    rw [hcalls] at h
    cases h
    exact .inl ⟨nofun, rfl, .success, hset⟩
  have hset := weightSet_of_accepts file haccepts
  rw [weightSet, if_neg haccepts.1, if_neg haccepts.2.1, if_neg haccepts.2.2] at h
  split at h
  · cases h
    exact .inl ⟨nofun, rfl, ⟨false, true, none⟩, hset _⟩
  rename_i hopen
  rw [Bool.or_eq_true, Bool.not_eq_true', Bool.not_eq_true', not_or, Bool.not_eq_false, Bool.not_eq_false] at hopen
  obtain ⟨buf, hread, h⟩ := Option.bind_eq_some_iff.1 h
  cases buf with
  | none =>
    cases h
    exact .inl ⟨nofun, rfl, ⟨true, false, none⟩, hset _⟩
  | some buf =>
    have hbuf : Xha.readHostweightFile buf = Xha.readHostweightFile file := by
      rw [readHostweightFile_eq hread, Xha.readHostweightFile, List.take_take, Nat.min_self]
      rfl
    dsimp only at h
    rw [hbuf] at h
    cases htable : setHostweightTable (Xha.readHostweightFile file) (cname classname) weight with
    | none =>
      rw [htable] at h hset
      cases h
      exact .inl ⟨nofun, rfl, .success, hset _⟩
    | some wtable =>
      rw [htable] at h
      obtain ⟨⟨ok, t⟩, hwrite, h⟩ := Option.map_eq_some_iff.1 h
      cases h
      refine .inr ⟨haccepts, hopen.1, hopen.2, ?_, wtable, ok, t, rfl, writeHostweightFile_outcome hwrite, rfl, rfl⟩
      rw [hread]
      exact nofun

/-- As long as `ftruncate` does not fail, this is `weight_set` on a whole file. -/
theorem weightSet_refines (htruncates : c.truncates = true) (h : c.weightSet classname weight file fuel = some (exit, file')) :
    ∃ io, Xha.weightSet io classname weight file = (exit, file') := by
  rcases weightSet_returned h with ⟨-, rfl, hio⟩ | ⟨haccepts, -, -, -, wtable, ok, t, htable, houtcome, rfl, rfl⟩
  · exact hio
  · have hset := weightSet_of_accepts file haccepts
    rw [htable] at hset
    have hpatch : ∀ text : List Char, patch [] 0 text = text := fun text => by simp [patch]
    rw [htruncates, if_pos rfl] at houtcome
    rcases houtcome with ⟨rfl, ht⟩ | ⟨rfl, -, n, -, ht⟩
    · refine ⟨.success, ?_⟩
      rw [hset, ht.file, hpatch]
      rfl
    · refine ⟨⟨true, true, some n⟩, ?_⟩
      rw [hset, ht.file, hpatch]
      rfl

end WeightCalls

/-- A `weight_set` that fails leaves the file as it was, unless it is a `write` that fails. Then the file holds what has
been written of the new table, on top of the old file if `ftruncate` failed as well. -/
theorem failed_weight_set (c : WeightCalls) (classname : List Char) (weight : MtcU32) (file : List Char) {fuel : Nat}
    {exit : MtcExit} {file' : List Char} (h : c.weightSet classname weight file fuel = some (exit, file'))
    (hexit : exit ≠ .success) :
    (exit = .invalidParameter ∨ c.opens = false ∨ c.locks = false ∨ c.readHostweightFile file fuel = some none ∨
      (∀ k, c.writes k ≠ none) → file' = file) ∧
    (file' = file ∨ ∃ wtable, setHostweightTable (readHostweightFile file) (cname classname) weight = some wtable ∧
      ∃ n < (writeHostweightFile wtable).length,
        file' = patch (if c.truncates then [] else file) 0 ((writeHostweightFile wtable).take n)) := by
  rcases WeightCalls.weightSet_returned h with
    ⟨-, rfl, -⟩ | ⟨-, hopens, hlocks, hread, wtable, ok, t, htable, houtcome, rfl, rfl⟩
  · exact ⟨fun _ => rfl, .inl rfl⟩
  · rcases houtcome with ⟨rfl, -⟩ | ⟨rfl, ⟨k, hk⟩, n, hn, ht⟩
    · exact absurd rfl hexit
    · constructor
      · rintro (hinvalid | hopens' | hlocks' | hread' | hwrites)
        · cases hinvalid
        · rw [hopens] at hopens'
          cases hopens'
        · rw [hlocks] at hlocks'
          cases hlocks'
        · exact absurd hread' hread
        · exact absurd hk (hwrites k)
      · exact .inr ⟨wtable, htable, n, hn, ht.file⟩

/-- A disk that is full after the first `write`. -/
def fullDisk : WeightCalls :=
  { opens := true, locks := true, reads := fun _ => some 4095, truncates := true
    writes := fun k => if k = 0 then some 4096 else none }

theorem failed_weight_set_unlocked : ∃ exit file',
    WeightCalls.weightSet { fullDisk with locks := false } ['c'] 3 "a 1\nb 2\n".toList 8 = some (exit, file') ∧
      file' = "a 1\nb 2\n".toList := by
  have h : WeightCalls.weightSet { fullDisk with locks := false } ['c'] 3 "a 1\nb 2\n".toList 8 =
      some (.systemError, "a 1\nb 2\n".toList) := rfl
  exact ⟨_, _, h, (failed_weight_set _ _ _ _ h nofun).1 (.inr (.inr (.inl rfl)))⟩

/-- The class b is lost with the call that should add the class c. -/
theorem full_disk_loses_class :
    fullDisk.weightSet ['c'] 3 "a 1\nb 2\n".toList 8 = some (.systemError, "a 1\n".toList) ∧
      "a 1\n".toList ≠ "a 1\nb 2\n".toList := by
  constructor
  · decide +kernel
  · decide

end Xha
