/-
What is written to the State-File can be read (statefileio.c): each section comes back as it was, the other slots stay
as they are, and a section with another word is noticed. A short write counts as a success and leaves what it leaves.
-/
import Xha.StateFile.Format

namespace Xha

open Region Layout

/-! ## The checksum -/

theorem sfChecksum_eq_sum (words : List MtcU32) : sfChecksum words = words.sum := by
  have hfold : ∀ s : MtcU32, words.foldl (· + ·) s = s + words.sum := by
    induction words with
    | nil => exact fun s => (add_zero s).symm
    | cons w words ih =>
      intro s
      rw [List.foldl_cons, ih, List.sum_cons, add_assoc]
  rw [sfChecksum, hfold, zero_add]

/-- Another word changes the checksum. -/
theorem sfChecksum_set_iff {words : List MtcU32} {j : Nat} (hj : j < words.length) (w : MtcU32) :
    sfChecksum (words.set j w) = sfChecksum words ↔ w = words[j] := by
  rw [sfChecksum_eq_sum, sfChecksum_eq_sum, List.sum_set', dif_pos hj, add_eq_left, neg_add_eq_zero, eq_comm]

namespace SfFormat

variable {β : Type} (F : SfFormat β)

/-! ## Sections as words -/

/-- All words of a section. -/
def dataWords (d : SfData β) : List MtcU32 := d.sig :: d.sigInv :: d.checksum :: (F.bodyWords d.body ++ [d.endMarker])

theorem length_bodyWords (b : β) : (F.bodyWords b).length = F.words := length_decodeArray ..

theorem length_dataWords (d : SfData β) : (F.dataWords d).length = F.words + 4 := by
  simp [dataWords, F.length_bodyWords]

theorem size_eq_words : F.size = (F.words + 4) * wordLayout.size := by
  have hsize : F.size = wordLayout.size + (wordLayout.size + (wordLayout.size + (F.layout.size + wordLayout.size))) := rfl
  rw [hsize, F.size_eq]
  ring

theorem encode_eq_words (d : SfData β) : (dataLayout F.layout).encode d = wordLayout.encodeArray (F.dataWords d) := by
  have hbody : wordLayout.encodeArray (F.bodyWords d.body) = F.layout.encode d.body :=
    encodeArray_decodeArray _ _ _ (by rw [F.layout.length_encode, F.size_eq])
  have hencode : (dataLayout F.layout).encode d = wordLayout.encode d.sig ++ (wordLayout.encode d.sigInv ++
      (wordLayout.encode d.checksum ++ (F.layout.encode d.body ++ wordLayout.encode d.endMarker))) := rfl
  rw [hencode, dataWords, encodeArray_cons, encodeArray_cons, encodeArray_cons, encodeArray_append, hbody, encodeArray_cons]
  simp [encodeArray]

theorem decode_words (a b c e : MtcU32) {body : List MtcU32} (h : body.length = F.words) :
    (dataLayout F.layout).decode (wordLayout.encodeArray (a :: b :: c :: (body ++ [e]))) =
      ⟨a, b, c, F.layout.decode (wordLayout.encodeArray body), e⟩ := by
  have hbody : (wordLayout.encodeArray body).length = F.layout.size := by rw [length_encodeArray, h, F.size_eq]
  have hlast : wordLayout.encodeArray [e] = wordLayout.encode e := by simp [encodeArray]
  have hword : ∀ w, (wordLayout.encode w).length = wordLayout.size := wordLayout.length_encode
  rw [encodeArray_cons, encodeArray_cons, encodeArray_cons, encodeArray_append, hlast]
  unfold dataLayout Layout.map
  dsimp only
  rw [prod_decode_append _ _ (hword a), prod_decode_append _ _ (hword b), prod_decode_append _ _ (hword c),
    prod_decode_append _ _ hbody]
  simp only [wordLayout.decode_encode, Equiv.coe_fn_mk]

theorem bodyWords_decode {body : List MtcU32} (h : body.length = F.words) :
    F.bodyWords (F.layout.decode (wordLayout.encodeArray body)) = body := by
  have hround := decodeArray_encodeArray wordLayout body []
  rw [List.append_nil, h] at hround
  rw [bodyWords, F.layout.encode_decode _ (by rw [length_encodeArray, h, F.size_eq]), hround]

/-! ## The checks -/

theorem validate_sealed {b : β} (hcheck : F.check (F.stamp b) = .success) : F.validate (F.sealed b) = .success := by
  simp [validate, sealed, hcheck]

/-- A written section with another word in one place, before the end marker, is found corrupted. -/
theorem validate_changed (b : β) {i : Nat} (hi : i < F.words + 3) {w : MtcU32} (hw : (F.dataWords (F.sealed b))[i]? ≠ some w) :
    F.validate ((dataLayout F.layout).decode (wordLayout.encodeArray ((F.dataWords (F.sealed b)).set i w))) = .corruption := by
  have hlength := F.length_bodyWords (F.stamp b)
  have hwords : F.dataWords (F.sealed b) = F.sig :: sfCreateInvertedSig F.sig :: sfChecksum (F.bodyWords (F.stamp b)) ::
      (F.bodyWords (F.stamp b) ++ [F.endMarker]) := rfl
  rw [hwords] at hw ⊢
  -- the first two words are compared with constants and the third one with the sum; any other word is in the sum
  match i with
  | 0 =>
    have hne : w ≠ F.sig := fun h => hw (by rw [h]; rfl)
    rw [List.set_cons_zero, F.decode_words _ _ _ _ hlength, validate, if_pos (.inl hne)]
  | 1 =>
    have hne : w ≠ sfCreateInvertedSig F.sig := fun h => hw (by rw [h]; rfl)
    rw [List.set_cons_succ, List.set_cons_zero, F.decode_words _ _ _ _ hlength, validate, if_pos (.inr hne)]
  | 2 =>
    have hne : sfChecksum (F.bodyWords (F.stamp b)) ≠ w := fun h => hw (by rw [← h]; rfl)
    rw [List.set_cons_succ, List.set_cons_succ, List.set_cons_zero, F.decode_words _ _ _ _ hlength, validate]
    simp [F.bodyWords_decode hlength, hne]
  | j + 3 =>
    have hj : j < (F.bodyWords (F.stamp b)).length := by omega
    have hne : sfChecksum ((F.bodyWords (F.stamp b)).set j w) ≠ sfChecksum (F.bodyWords (F.stamp b)) := by
      rw [ne_eq, sfChecksum_set_iff hj]
      rintro rfl
      apply hw
      rw [List.getElem?_cons_succ, List.getElem?_cons_succ, List.getElem?_cons_succ]
      exact (List.getElem?_append_left hj).trans (List.getElem?_eq_getElem hj)
    have hset : ((F.bodyWords (F.stamp b)).set j w).length = F.words := by rw [List.length_set, hlength]
    rw [List.set_cons_succ, List.set_cons_succ, List.set_cons_succ, List.set_append_left _ _ hj,
      F.decode_words _ _ _ _ hset, validate]
    simp [F.bodyWords_decode hset, hne]

/-! ## Accesses -/

theorem size_le_rounded : F.size ≤ F.rounded := by
  unfold rounded roundUp ioUnit
  omega

theorem rounded_ne_zero : F.rounded ≠ 0 := by
  have hpos : 0 < F.size := by
    rw [F.size_eq_words]
    exact Nat.mul_pos (Nat.succ_pos _) (by decide)
  have hround := F.size_le_rounded
  omega

/-- What the State-File holds in the place of the section. -/
def stored (file : List Byte) : SfData β := (dataLayout F.layout).decode (slice file F.offset F.size)

/-- The section as it is written. -/
def written (p : SfSection) : SfSection := F.setData p (F.sealed (F.data p).body)

/-- The fields that are set are those of the section. -/
theorem data_setData (p : SfSection) (d : SfData β) : F.data (F.setData p d) = d := by
  have htake : (F.setData p d).bytes.take F.size = (dataLayout F.layout).encode d := by
    apply List.take_left'
    exact (dataLayout F.layout).length_encode _
  rw [data, htake]
  exact (dataLayout F.layout).decode_encode _

theorem take_written (p : SfSection) :
    (F.written p).bytes.take F.size = (dataLayout F.layout).encode (F.sealed (F.data p).body) := by
  apply List.take_left'
  exact (dataLayout F.layout).length_encode _

theorem data_written (p : SfSection) : F.data (F.written p) = F.sealed (F.data p).body := F.data_setData ..

theorem data_overlay (p : SfSection) {file : List Byte} (h : F.offset + F.rounded ≤ file.length) :
    F.data (p.overlay (slice file F.offset F.rounded)) = F.stored file := by
  have hsize := F.size_le_rounded
  have hfits : F.rounded ≤ lengthGlobal := F.fits
  have hlength := length_slice h
  rw [data, SfSection.overlay, stored, List.take_take, Nat.min_eq_left (hsize.trans hfits), List.take_append_of_le_length (by omega),
    slice_take hsize]

variable {d : SfDescriptor} {file : List Byte}

/-- A read of a State-File that is long enough returns what is stored. -/
theorem readSection_returns (h : d.Reads) (hlen : F.offset + F.rounded ≤ file.length) (p : SfSection) :
    ∃ fuel q, F.readSection d file p fuel = .returned (F.validate (F.stored file), q) ∧ F.data q = F.stored file := by
  obtain ⟨fuel, hread⟩ := SfDescriptor.sfRead_returns h F.aligned hlen
  refine ⟨fuel, p.overlay (slice file F.offset F.rounded), ?_, F.data_overlay p hlen⟩
  rw [readSection, hread, ← F.data_overlay p hlen]
  rfl

/-- A read that returns anything returns that. -/
theorem readSection_returned (h : d.Reads) {p q : SfSection} {fuel : Nat} {status : SfStatus}
    (hread : F.readSection d file p fuel = .returned (status, q)) :
    status = F.validate (F.stored file) ∧ F.data q = F.stored file ∧ F.offset + F.rounded ≤ file.length := by
  rw [readSection] at hread
  cases hr : d.sfRead file F.size F.offset fuel with
  | running => rw [hr] at hread; cases hread
  | aborted => rw [hr] at hread; cases hread
  | returned result =>
    obtain ⟨rfl, hlen⟩ := SfDescriptor.sfRead_returned h F.aligned F.rounded_ne_zero hr
    rw [hr] at hread
    cases hread
    refine ⟨?_, F.data_overlay p hlen, hlen⟩
    rw [if_neg (not_not.2 rfl)]
    exact congrArg F.validate (F.data_overlay p hlen)

theorem writeSection_eq (p : SfSection) :
    F.writeSection d file p = d.taken.elim (.returned (.ioError, file, F.written p)) fun n =>
      .returned (.success, write 0 file F.offset ((F.written p).bytes.take (min n F.rounded)), F.written p) := by
  rw [writeSection, SfDescriptor.sfWrite_eq F.aligned]
  cases d.taken <;> rfl

theorem section_of_written {p p' : SfSection} {file' : List Byte}
    (hwrite : F.writeSection d file p = .returned (.success, file', p')) : p' = F.written p := by
  rw [writeSection_eq] at hwrite
  cases htaken : d.taken with
  | none =>
    rw [htaken] at hwrite
    cases hwrite
  | some n =>
    rw [htaken, Option.elim_some, SfCall.returned.injEq, Prod.mk.injEq, Prod.mk.injEq] at hwrite
    exact hwrite.2.2.symm

/-- A write of everything. -/
theorem writeSection_all (h : d.WritesAll F.rounded) (p : SfSection) :
    F.writeSection d file p = .returned (.success, write 0 file F.offset ((F.written p).bytes.take F.rounded), F.written p) := by
  obtain ⟨hseeks, n, hle, hwrites⟩ := h
  have htaken : d.taken = some n := by rw [SfDescriptor.taken, hseeks, if_pos rfl, hwrites]
  rw [writeSection_eq, htaken, Option.elim_some, Nat.min_eq_right hle]

/-! ## Sections in the State-File -/

/-- The State-File holds all bytes that are written of a section. -/
def Holds (file : List Byte) (p : SfSection) : Prop :=
  slice file F.offset F.rounded = (F.written p).bytes.take F.rounded

theorem length_take_written (p : SfSection) : ((F.written p).bytes.take F.rounded).length = F.rounded := by
  rw [List.length_take_of_le]
  rw [(F.written p).length_bytes]
  exact F.fits

theorem holds_write (file : List Byte) (p : SfSection) :
    F.Holds (write 0 file F.offset ((F.written p).bytes.take F.rounded)) p := by
  have hslice := @slice_write _ (0 : Byte) file F.offset ((F.written p).bytes.take F.rounded)
  rwa [F.length_take_written] at hslice

theorem holds_of_written (h : d.WritesAll F.rounded) {p p' : SfSection} {file' : List Byte}
    (hwrite : F.writeSection d file p = .returned (.success, file', p')) : F.Holds file' p := by
  rw [F.writeSection_all h, SfCall.returned.injEq, Prod.mk.injEq, Prod.mk.injEq] at hwrite
  rw [← hwrite.2.1]
  exact F.holds_write file p

namespace Holds

variable {F} {p : SfSection} (h : F.Holds file p)

include h

theorem le_length : F.offset + F.rounded ≤ file.length := by
  have hlength := congrArg List.length h
  rw [F.length_take_written, length_slice_eq_iff] at hlength
  exact hlength.resolve_left F.rounded_ne_zero

theorem slice_eq : slice file F.offset F.size = (dataLayout F.layout).encode (F.sealed (F.data p).body) := by
  have htake := congrArg (·.take F.size) h
  rw [slice_take F.size_le_rounded, List.take_take, Nat.min_eq_left F.size_le_rounded, F.take_written] at htake
  exact htake

theorem stored_eq : F.stored file = F.sealed (F.data p).body := by
  rw [stored, h.slice_eq]
  exact (dataLayout F.layout).decode_encode _

theorem word {i : Nat} {w : MtcU32} (hw : (F.dataWords (F.sealed (F.data p).body))[i]? = some w) :
    wordLayout.decode (slice file (F.offset + i * 4) 4) = w := by
  obtain ⟨hi, rfl⟩ := List.getElem?_eq_some_iff.1 hw
  have hsize : F.size = (F.words + 4) * 4 := F.size_eq_words
  have hlength := F.length_dataWords (F.sealed (F.data p).body)
  have hinside : slice (slice file F.offset F.size) (i * 4) 4 = slice file (F.offset + i * 4) 4 := slice_slice (by omega)
  rw [← hinside, h.slice_eq, F.encode_eq_words]
  exact (congrArg wordLayout.decode (slice_encodeArray wordLayout hi)).trans (wordLayout.decode_encode _)

/-- A read of it is a success. -/
theorem read (hr : d.Reads) (hcheck : F.check (F.stamp (F.data p).body) = .success) (q : SfSection) :
    ∃ fuel q', F.readSection d file q fuel = .returned (.success, q') ∧ F.data q' = F.sealed (F.data p).body := by
  have hread := F.readSection_returns hr h.le_length q
  rw [h.stored_eq, F.validate_sealed hcheck] at hread
  exact hread

/-- After another word has come in one place before the end marker, each read finds the section corrupted. -/
theorem read_changed (hr : d.Reads) {i : Nat} (hi : i < F.words + 3) {w : MtcU32}
    (hw : w ≠ wordLayout.decode (slice file (F.offset + i * 4) 4)) (q : SfSection) :
    (∃ fuel q', F.readSection d (patch file (F.offset + i * 4) (wordLayout.encode w)) q fuel = .returned (.corruption, q')) ∧
      ∀ fuel status q', F.readSection d (patch file (F.offset + i * 4) (wordLayout.encode w)) q fuel = .returned (status, q') →
        status = .corruption := by
  have hlen := h.le_length
  have hround := F.size_le_rounded
  have hword : (wordLayout.encode w).length = 4 := wordLayout.length_encode w
  have hsize : F.size = (F.words + 4) * 4 := F.size_eq_words
  have hwords : i < (F.dataWords (F.sealed (F.data p).body)).length := by
    rw [F.length_dataWords]
    omega
  have hold : (F.dataWords (F.sealed (F.data p).body))[i]? ≠ some w := by
    rintro hsome
    exact hw (h.word hsome).symm
  have hchanged : slice (patch file (F.offset + i * 4) (wordLayout.encode w)) F.offset F.size =
      wordLayout.encodeArray ((F.dataWords (F.sealed (F.data p).body)).set i w) := by
    rw [slice_patch_inside (by omega) (by omega), h.slice_eq, F.encode_eq_words, encodeArray_set _ hwords]
    rfl
  have hstored : F.validate (F.stored (patch file (F.offset + i * 4) (wordLayout.encode w))) = .corruption := by
    rw [stored, hchanged]
    exact F.validate_changed _ hi hold
  have hpatch : F.offset + F.rounded ≤ (patch file (F.offset + i * 4) (wordLayout.encode w)).length := by
    rw [length_patch (by omega)]
    omega
  constructor
  · obtain ⟨fuel, q', hread, -⟩ := F.readSection_returns hr hpatch q
    rw [hstored] at hread
    exact ⟨fuel, q', hread⟩
  · intro fuel status q' hread
    rw [(F.readSection_returned hr hread).1, hstored]

end Holds

/-! ## Short writes -/

/-- `write` is not reached, fails, or leaves out only bytes that the State-File holds already. -/
def RestInPlace (d : SfDescriptor) (file : List Byte) (p : SfSection) : Prop :=
  d.seeks = false ∨ d.writes = none ∨
    ∃ n, d.writes = some n ∧ ∀ k, n ≤ k → k < F.rounded → file[F.offset + k]? = (F.written p).bytes[k]?

/-- After a success the State-File holds all bytes in exactly that case. -/
theorem holds_iff (d : SfDescriptor) (file : List Byte) (p : SfSection) :
    (∀ file' p', F.writeSection d file p = .returned (.success, file', p') → F.Holds file' p) ↔ F.RestInPlace d file p := by
  rw [writeSection_eq, RestInPlace, SfDescriptor.taken]
  cases hseeks : d.seeks with
  | false => simp
  | true =>
    cases hwrites : d.writes with
    | none => simp
    | some n =>
      have hlen : F.rounded ≤ (F.written p).bytes.length := by
        rw [(F.written p).length_bytes]
        exact F.fits
      have hmin : (∀ k, min n F.rounded ≤ k → k < F.rounded → file[F.offset + k]? = (F.written p).bytes[k]?) ↔
          ∀ k, n ≤ k → k < F.rounded → file[F.offset + k]? = (F.written p).bytes[k]? :=
        forall_congr' fun k => by
          constructor
          · exact fun h hn hk => h (by omega) hk
          · exact fun h hn hk => h (by omega) hk
      simpa [Holds, slice_write_take_iff hlen] using hmin

/-- The same with what follows from it. -/
theorem complete_iff {d : SfDescriptor} {file : List Byte} {p : SfSection} {R : List Byte → SfSection → Prop}
    (hR : ∀ file', F.Holds file' p → R file' (F.written p)) :
    (∀ file' p', F.writeSection d file p = .returned (.success, file', p') →
      slice file' F.offset F.rounded = p'.bytes.take F.rounded ∧ R file' p') ↔ F.RestInPlace d file p := by
  rw [← F.holds_iff]
  constructor
  · intro h file' p' hwrite
    rw [Holds, ← F.section_of_written hwrite]
    exact (h file' p' hwrite).1
  · intro h file' p' hwrite
    have hholds := h file' p' hwrite
    rw [F.section_of_written hwrite]
    exact ⟨hholds, hR file' hholds⟩

end SfFormat

/-! ## The State-File -/

/-- What the State-File holds of a slot stays. -/
def SlotKept (file file' : List Byte) (offset : Nat) : Prop :=
  ∀ k < lengthGlobal, offset + k < file.length → file'[offset + k]? = file[offset + k]?

/-- A write within another slot. -/
theorem slotKept_write {file new : List Byte} {pos offset : Nat} (hnew : new.length ≤ lengthGlobal)
    (hne : pos + lengthGlobal ≤ offset ∨ offset + lengthGlobal ≤ pos) : SlotKept file (write 0 file pos new) offset :=
  fun _ hk hlt => getElem?_write_outside (by omega) hlt

namespace SfFormat

variable {β : Type} (F : SfFormat β)

/-- A write of everything leaves the section in the State-File, and the other slots as they were. -/
theorem write_all {w : SfDescriptor} (hw : w.WritesAll F.rounded) (file : List Byte) (p : SfSection) :
    ∃ file', F.writeSection w file p = .returned (.success, file', F.written p) ∧ F.Holds file' p ∧
      ∀ offset, F.offset + lengthGlobal ≤ offset ∨ offset + lengthGlobal ≤ F.offset → SlotKept file file' offset := by
  refine ⟨_, F.writeSection_all hw p, F.holds_write file p, fun offset hne => slotKept_write ?_ hne⟩
  rw [F.length_take_written]
  exact F.fits

end SfFormat

end Xha
