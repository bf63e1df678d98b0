/-
What a State-File keeps (statefileio.c): a section that was written whole stays in its slot until another one is written
there, and until then each read of it that does not fail returns its fields. The pool is the global section with the
records of all hosts.
-/
import Xha.StateFile.ReadBack

namespace Xha

open Region

/-! ## Calls with enough fuel -/

/-- The call ends with that, given enough turns of its loops, and with nothing else. -/
structure SfCall.Yields {α : Type} (call : Nat → SfCall α) (a : α) : Prop where
  ends : ∃ least, ∀ fuel ≥ least, call fuel = .returned a
  only : ∀ fuel, call fuel = .running ∨ call fuel = .returned a

namespace SfCall

variable {α β : Type}

theorem returned_bind {x : SfCall α} {a : α} (h : x = .returned a) (f : α → SfCall β) : x.bind f = f a := by
  rw [h]
  rfl

theorem bind_returned {x : SfCall α} {f : α → SfCall β} {b : β} (h : x.bind f = .returned b) :
    ∃ a, x = .returned a ∧ f a = .returned b := by
  cases x with
  | running => cases h
  | aborted => cases h
  | returned a => exact ⟨a, rfl, h⟩

theorem Yields.of_returned (a : α) : Yields (fun _ => .returned a) a where
  ends := ⟨0, fun _ _ => rfl⟩
  only _ := .inr rfl

theorem Yields.bind {call : Nat → SfCall α} {f : Nat → α → SfCall β} {a : α} {b : β} (h : Yields call a)
    (hf : Yields (fun fuel => f fuel a) b) : Yields (fun fuel => (call fuel).bind (f fuel)) b where
  ends := by
    obtain ⟨least, hleast⟩ := h.ends
    obtain ⟨least', hleast'⟩ := hf.ends
    refine ⟨max least least', fun fuel hfuel => ?_⟩
    rw [hleast fuel (le_trans (le_max_left ..) hfuel)]
    exact hleast' fuel (le_trans (le_max_right ..) hfuel)
  only fuel := by
    rcases h.only fuel with hrun | hret
    · exact .inl (by rw [hrun]; rfl)
    · rw [hret]
      exact hf.only fuel

/-- What has been returned once is what the call ends with. -/
theorem Yields.eq {call : Nat → SfCall α} {a b : α} (h : Yields call a) {fuel : Nat} (hb : call fuel = .returned b) : b = a := by
  rcases h.only fuel with hrun | hret
  · rw [hrun] at hb
    cases hb
  · rw [hret] at hb
    exact (SfCall.returned.inj hb).symm

end SfCall

/-! ## A section -/

namespace SfFormat

variable {β γ : Type} (F : SfFormat β) {file : List Byte} {b : β}

/-- The State-File holds a section that was written with these fields. -/
structure Keeps (file : List Byte) (b : β) : Prop where
  inside : F.offset + F.rounded ≤ file.length
  stored : F.stored file = F.sealed b

theorem Holds.keeps {F : SfFormat β} {p : SfSection} (h : F.Holds file p) : F.Keeps file (F.data p).body :=
  ⟨h.le_length, h.stored_eq⟩

variable {F}

/-- It stays while its slot does. -/
theorem Keeps.slot (h : F.Keeps file b) {file' : List Byte} (hle : file.length ≤ file'.length)
    (hslot : SlotKept file file' F.offset) : F.Keeps file' b := by
  have hsize := F.size_le_rounded
  have hfits : F.rounded ≤ lengthGlobal := F.fits
  have hinside := h.inside
  have hslice : slice file' F.offset F.size = slice file F.offset F.size := by
    apply List.ext_getElem?
    intro k
    rw [getElem?_slice, getElem?_slice]
    split
    · apply hslot
      · omega
      · omega
    · rfl
  refine ⟨le_trans hinside hle, ?_⟩
  rw [SfFormat.stored, hslice]
  exact h.stored

/-- A write of everything: the section is kept, and so is each one in another slot. -/
theorem write_keeps (F : SfFormat β) {w : SfDescriptor} (hw : w.WritesAll F.rounded) (file : List Byte) (p : SfSection) :
    ∃ file', F.writeSection w file p = .returned (.success, file', F.written p) ∧ F.Keeps file' (F.data p).body ∧
      ∀ {γ : Type} (G : SfFormat γ) (b : γ), F.offset + lengthGlobal ≤ G.offset ∨ G.offset + lengthGlobal ≤ F.offset →
        G.Keeps file b → G.Keeps file' b := by
  have hfits : F.rounded ≤ lengthGlobal := F.fits
  refine ⟨_, F.writeSection_all hw p, (F.holds_write file p).keeps, fun G b hne h => h.slot ?_ (slotKept_write ?_ hne)⟩
  · rw [length_write]
    split
    · exact le_rfl
    · exact le_max_left ..
  · rw [F.length_take_written]
    exact hfits

/-- A read of a State-File that is long enough. -/
theorem readSection_yields (F : SfFormat β) {d : SfDescriptor} (hd : d.Reads) (hlen : F.offset + F.rounded ≤ file.length)
    (p : SfSection) : SfCall.Yields (F.readSection d file p)
      (F.validate (F.stored file), p.overlay (slice file F.offset F.rounded)) := by
  have hdata := F.data_overlay p hlen
  obtain ⟨least, hleast⟩ := SfDescriptor.sfRead_returns hd F.aligned hlen
  have hloop : ∀ fuel, d.sfRead file F.size F.offset fuel = .ofLoop (While.run (d.readTurn file) fuel ⟨0, F.offset, F.rounded, []⟩) :=
    SfDescriptor.sfRead_eq (SfDescriptor.not_misaligned F.aligned) (SfDescriptor.not_unseeked hd.seeks)
  have hend : ∀ fuel, d.sfRead file F.size F.offset fuel = .returned (.success, slice file F.offset F.rounded) →
      F.readSection d file p fuel = .returned (F.validate (F.stored file), p.overlay (slice file F.offset F.rounded)) := by
    intro fuel hread
    rw [readSection, hread, ← hdata]
    rfl
  constructor
  · refine ⟨least, fun fuel hfuel => hend fuel ?_⟩
    rw [hloop, SfCall.ofLoop_returned] at hleast ⊢
    exact While.run_mono hleast hfuel
  · intro fuel
    cases hread : d.sfRead file F.size F.offset fuel with
    | running => exact .inl (by rw [readSection, hread]; rfl)
    | aborted =>
      rw [hloop] at hread
      unfold SfCall.ofLoop at hread
      split at hread <;> cases hread
    | returned result =>
      obtain ⟨rfl, -⟩ := SfDescriptor.sfRead_returned hd F.aligned F.rounded_ne_zero hread
      exact .inr (hend fuel hread)

/-- A read of a section that is kept. -/
theorem Keeps.read (h : F.Keeps file b) {d : SfDescriptor} (hd : d.Reads) (hcheck : F.check (F.stamp b) = .success)
    (p : SfSection) : ∃ q, SfCall.Yields (F.readSection d file p) (.success, q) ∧ F.data q = F.sealed b := by
  refine ⟨p.overlay (slice file F.offset F.rounded), ?_, ?_⟩
  · have hread := F.readSection_yields hd h.inside p
    rw [h.stored, F.validate_sealed hcheck] at hread
    exact hread
  · rw [F.data_overlay p h.inside, h.stored]

end SfFormat

/-! ## The pool -/

/-- The fields of the global section and of the records of the hosts. -/
structure SfPool where
  global : SfGlobalBody
  host : Nat → SfHostBody

/-- The State-File holds all of them. -/
structure SfPool.KeptIn (pool : SfPool) (file : List Byte) : Prop where
  stamped : (globalFormat none).stamp pool.global = pool.global
  global : (globalFormat none).Keeps file pool.global
  host : ∀ i < maxHostNum, (hostFormat i).Keeps file (pool.host i)

/-- Each of them can be read, the global section when the expected UUID is its own. -/
theorem SfPool.KeptIn.read {pool : SfPool} {file : List Byte} (h : pool.KeptIn file) {d : SfDescriptor} (hd : d.Reads)
    (p : SfSection) :
    (∀ expectedUuid : Option MtcUuid, (∀ uuid ∈ expectedUuid, uuidComp pool.global.genUuid.chars uuid = .eq) →
      ∃ q, SfCall.Yields (sfReadglobal d file p expectedUuid) (.success, q) ∧
        ((globalFormat expectedUuid).data q).body = pool.global) ∧
    ∀ i < maxHostNum, ∃ q, SfCall.Yields (sfReadhostspecific d file i p) (.success, q) ∧
      ((hostFormat i).data q).body = pool.host i := by
  constructor
  · intro expectedUuid hexpected
    have hkeeps : (globalFormat expectedUuid).Keeps file pool.global := ⟨h.global.inside, h.global.stored⟩
    have hcheck : (globalFormat expectedUuid).check ((globalFormat expectedUuid).stamp pool.global) = .success := by
      cases expectedUuid with
      | none => rfl
      | some uuid =>
        simp only [globalFormat, ne_eq, not_true_eq_false, if_false]
        exact if_neg (not_not.2 (hexpected uuid rfl))
    obtain ⟨q, hread, hdata⟩ := hkeeps.read hd hcheck p
    refine ⟨q, hread, ?_⟩
    rw [hdata]
    exact h.stamped
  · intro i hi
    obtain ⟨q, hread, hdata⟩ := (h.host i hi).read hd rfl p
    exact ⟨q, hread, congrArg SfData.body hdata⟩

end Xha
