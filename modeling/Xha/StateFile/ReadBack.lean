/-
What the State-File holds after `sf_writeglobal` and `sf_writehostspecific` (statefileio.c) and what `sf_readglobal` and
`sf_readhostspecific` make of it: the section that was written (`sf_round_trip`), a corruption when a word has changed
(`sf_changed_word_is_found`), and anything after a short write, which is no error (`sf_write_complete_iff`). Each is one
fact about a format with a slot of its own (`SfFormat`), of which the two sections are instances.
-/
import Xha.StateFile.Codec

namespace Xha

open Region

/-! ## Round trips -/

/-- The UUID of the pool configuration in the section is the expected one, if there is one. -/
def GenUuidExpected (pglobal : SfSection) (expectedUuid : Option MtcUuid) : Prop :=
  ∀ uuid ∈ expectedUuid, uuidComp ((globalFormat none).data pglobal).body.genUuid.chars uuid = .eq

theorem globalFormat_check {p : SfSection} {expectedUuid : Option MtcUuid} (h : GenUuidExpected p expectedUuid) :
    (globalFormat expectedUuid).check ((globalFormat expectedUuid).stamp ((globalFormat expectedUuid).data p).body) =
      .success := by
  cases expectedUuid with
  | none => rfl
  | some uuid =>
    have hcomp := h uuid rfl
    simp only [globalFormat, ne_eq, not_true_eq_false, if_false]
    exact if_neg (not_not.2 hcomp)

/-- The slot of a host is neither the global one nor that of another host. -/
theorem slots_apart {i j : Nat} (hne : i ≠ j) :
    (hostFormat i).offset + lengthGlobal ≤ (hostFormat j).offset ∨
      (hostFormat j).offset + lengthGlobal ≤ (hostFormat i).offset := by
  simp only [hostFormat, lengthGlobal, lengthHostSpecific]
  omega

/-- Whatever the State-File holds, a section that is written into it is read as it was written, and the global section
and the records of the hosts are as before but for the one that was written. -/
theorem sf_round_trip {r : SfDescriptor} (hr : r.Reads) (file : List Byte) :
    (∀ w : SfDescriptor, w.WritesAll (globalFormat none).rounded → ∀ p : SfSection, ∃ file' p',
      sfWriteglobal w file p = .returned (.success, file', p') ∧
      (∀ expectedUuid, GenUuidExpected p expectedUuid → ∀ q, ∃ fuel q',
        sfReadglobal r file' q expectedUuid fuel = .returned (.success, q') ∧
          ((globalFormat none).data q').body = (globalFormat none).stamp ((globalFormat none).data p).body) ∧
      ∀ j < maxHostNum, SlotKept file file' (hostFormat j).offset) ∧
    ∀ i < maxHostNum, ∀ w : SfDescriptor, w.WritesAll (hostFormat i).rounded → ∀ p : SfSection, ∃ file' p',
      sfWritehostspecific w file i p = .returned (.success, file', p') ∧
      (∀ q, ∃ fuel q', sfReadhostspecific r file' i q fuel = .returned (.success, q') ∧
        ((hostFormat i).data q').body = ((hostFormat i).data p).body) ∧
      SlotKept file file' (globalFormat none).offset ∧
        ∀ j < maxHostNum, j ≠ i → SlotKept file file' (hostFormat j).offset := by
  constructor
  · intro w hw p
    obtain ⟨file', hwrite, hholds, hkept⟩ := (globalFormat none).write_all hw file p
    refine ⟨file', _, hwrite, fun expectedUuid hexpected q => ?_, fun j _ => hkept _ (.inl ?_)⟩
    · have hholds' : (globalFormat expectedUuid).Holds file' p := hholds
      obtain ⟨fuel, q', hread, hdata⟩ := hholds'.read hr (globalFormat_check hexpected) q
      exact ⟨fuel, q', hread, congrArg SfData.body hdata⟩
    · simp only [hostFormat, globalFormat]
      omega
  · intro i _ w hw p
    obtain ⟨file', hwrite, hholds, hkept⟩ := (hostFormat i).write_all hw file p
    refine ⟨file', _, hwrite, fun q => ?_, hkept _ (.inr ?_), fun j _ hne => hkept _ (slots_apart hne.symm)⟩
    · obtain ⟨fuel, q', hread, hdata⟩ := hholds.read hr rfl q
      refine ⟨fuel, q', hread, ?_⟩
      rw [hdata]
      rfl
    · simp only [hostFormat, globalFormat]
      omega

/-- A descriptor that reads and writes as much as it is asked to. -/
def wholeIo : SfDescriptor := ⟨true, fun _ => some lengthGlobal, some lengthGlobal⟩

theorem wholeIo_reads : wholeIo.Reads := by
  constructor
  · rfl
  · exact fun _ => Option.some_ne_none _

/-- A section without any bits. -/
def blankSection : SfSection := ⟨List.replicate lengthGlobal 0, List.length_replicate⟩

def someUuid : SfUuid := ⟨(List.range mtcUuidSize).map fun n => 48 + BitVec.ofNat 8 (n % 10), by decide⟩

/-- A record with something in every field. -/
def busyBody (i : Nat) : SfHostBody where
  sequence := 41
  hostIndex := BitVec.ofNat 32 i
  hostUuid := someUuid
  excluded := 1
  starting := 1
  sinceLastHbReceipt := List.Vector.replicate _ 500
  sinceLastSfUpdate := List.Vector.replicate _ 4000
  sinceXapiRestartFirstAttempted := 60000
  currentLiveset := HostMap.set (HostMap.set .empty 1) 2
  proposedLiveset := HostMap.set (HostMap.set .empty 2) 63
  hbdomain := HostMap.set (HostMap.set .empty i) 1
  sfdomain := HostMap.set .empty i
  lockRequest := 1
  lockGrant := HostMap.set .empty 1
  smPhase := 5
  weight := 10

def busyRecord (i : Nat) : SfSection := (hostFormat i).setData blankSection ⟨0, 0, 0, busyBody i, 0⟩

def activePool : SfSection := (globalFormat none).setData blankSection
  ⟨0, 0, 0, ⟨0, 0, 0, 0, someUuid, 1, someUuid, 3⟩, 0⟩

theorem genUuidExpected_activePool : GenUuidExpected activePool (some someUuid.chars) := by
  rintro uuid hsome
  cases hsome
  rw [activePool, SfFormat.data_setData]
  exact uuidComp_self _

/-- Behind the records of hosts 1 and 3 the global section and the record of host 2 are written: both can be read, the
former with its UUID expected, and nothing else has changed. -/
theorem record_between_others_comes_back : ∃ file₁ file₃ file file₂ p₁ p₃ p p₂,
    sfWritehostspecific wholeIo [] 1 (busyRecord 1) = .returned (.success, file₁, p₁) ∧
    sfWritehostspecific wholeIo file₁ 3 (busyRecord 3) = .returned (.success, file₃, p₃) ∧
    sfWriteglobal wholeIo file₃ activePool = .returned (.success, file, p) ∧
    sfWritehostspecific wholeIo file 2 (busyRecord 2) = .returned (.success, file₂, p₂) ∧
    (∃ fuel q, sfReadglobal wholeIo file blankSection (some someUuid.chars) fuel = .returned (.success, q) ∧
      ((globalFormat none).data q).body.poolState = 1) ∧
    (∃ fuel q, sfReadhostspecific wholeIo file₂ 2 (busyRecord 0) fuel = .returned (.success, q) ∧
      ((hostFormat 2).data q).body = busyBody 2) ∧
    SlotKept file file₂ 0 ∧ ∀ j ∈ [1, 3], SlotKept file₃ file (hostFormat j).offset ∧ SlotKept file file₂ (hostFormat j).offset := by
  have hhost : ∀ i, wholeIo.WritesAll (hostFormat i).rounded := fun i => ⟨rfl, lengthGlobal, (hostFormat i).fits, rfl⟩
  have hglobal : wholeIo.WritesAll (globalFormat none).rounded := ⟨rfl, lengthGlobal, (globalFormat none).fits, rfl⟩
  obtain ⟨file₁, p₁, hwrite₁, -⟩ := (sf_round_trip wholeIo_reads []).2 1 (by decide) wholeIo (hhost 1) (busyRecord 1)
  obtain ⟨file₃, p₃, hwrite₃, -⟩ := (sf_round_trip wholeIo_reads file₁).2 3 (by decide) wholeIo (hhost 3) (busyRecord 3)
  obtain ⟨file, p, hwrite, hread, hkept⟩ := (sf_round_trip wholeIo_reads file₃).1 wholeIo hglobal activePool
  obtain ⟨file₂, p₂, hwrite₂, hread₂, hkept₀, hkept₂⟩ :=
    (sf_round_trip wholeIo_reads file).2 2 (by decide) wholeIo (hhost 2) (busyRecord 2)
  refine ⟨file₁, file₃, file, file₂, p₁, p₃, p, p₂, hwrite₁, hwrite₃, hwrite, hwrite₂, ?_, ?_, hkept₀, ?_⟩
  · obtain ⟨fuel, q, hsuccess, hbody⟩ := hread _ genUuidExpected_activePool blankSection
    refine ⟨fuel, q, hsuccess, ?_⟩
    rw [hbody, activePool, SfFormat.data_setData]
    rfl
  · obtain ⟨fuel, q, hsuccess, hbody⟩ := hread₂ (busyRecord 0)
    refine ⟨fuel, q, hsuccess, ?_⟩
    rw [hbody, busyRecord, SfFormat.data_setData]
  · intro j hj
    have hj' : j < maxHostNum ∧ j ≠ 2 := by
      revert j
      decide
    exact ⟨hkept j hj'.1, hkept₂ j hj'.1 hj'.2⟩

/-! ## Corruption -/

/-- Another word in one place before the end marker of a section that has been written: a read of it ends, with
`MTC_ERROR_SF_CORRUPTION`. -/
theorem sf_changed_word_is_found {r : SfDescriptor} (hr : r.Reads) (file : List Byte) :
    (∀ w : SfDescriptor, w.WritesAll (globalFormat none).rounded → ∀ p file' p',
      sfWriteglobal w file p = .returned (.success, file', p') →
      ∀ i < (globalFormat none).words + 3, ∀ word ≠ wordLayout.decode (slice file' (i * 4) 4), ∀ expectedUuid q,
        (∃ fuel q', sfReadglobal r (patch file' (i * 4) (wordLayout.encode word)) q expectedUuid fuel =
          .returned (.corruption, q')) ∧
        ∀ fuel status q', sfReadglobal r (patch file' (i * 4) (wordLayout.encode word)) q expectedUuid fuel =
          .returned (status, q') → status = .corruption) ∧
    ∀ h < maxHostNum, ∀ w : SfDescriptor, w.WritesAll (hostFormat h).rounded → ∀ p file' p',
      sfWritehostspecific w file h p = .returned (.success, file', p') →
      ∀ i < (hostFormat h).words + 3, ∀ word ≠ wordLayout.decode (slice file' ((hostFormat h).offset + i * 4) 4), ∀ q,
        (∃ fuel q', sfReadhostspecific r (patch file' ((hostFormat h).offset + i * 4) (wordLayout.encode word)) h q fuel =
          .returned (.corruption, q')) ∧
        ∀ fuel status q', sfReadhostspecific r (patch file' ((hostFormat h).offset + i * 4) (wordLayout.encode word)) h q fuel =
          .returned (status, q') → status = .corruption := by
  constructor
  · rintro w hw p file' p' hwrite i hi word hword expectedUuid q
    have hholds : (globalFormat expectedUuid).Holds file' p := (globalFormat none).holds_of_written hw hwrite
    have hpos : (globalFormat expectedUuid).offset + i * 4 = i * 4 := Nat.zero_add _
    rw [← hpos] at hword ⊢
    exact hholds.read_changed hr hi hword q
  · rintro h - w hw p file' p' hwrite i hi word hword q
    exact ((hostFormat h).holds_of_written hw hwrite).read_changed hr hi hword q

/-- The signature of a blank global section, overwritten with zero. -/
theorem changed_signature_is_found : ∃ file' p', sfWriteglobal wholeIo [] blankSection = .returned (.success, file', p') ∧
    ∃ fuel q', sfReadglobal wholeIo (patch file' (0 * 4) (wordLayout.encode 0)) blankSection none fuel =
      .returned (.corruption, q') := by
  have hwrites : wholeIo.WritesAll (globalFormat none).rounded := ⟨rfl, lengthGlobal, (globalFormat none).fits, rfl⟩
  obtain ⟨file', hwrite, hholds, -⟩ := (globalFormat none).write_all hwrites [] blankSection
  have hsig : wordLayout.decode (slice file' ((globalFormat none).offset + 0 * 4) 4) = sigSfGlobal := hholds.word rfl
  have hne : 0 ≠ wordLayout.decode (slice file' (0 * 4) 4) := by
    intro hzero
    exact absurd (hzero.trans hsig) (by decide)
  exact ⟨file', _, hwrite, ((sf_changed_word_is_found wholeIo_reads []).1 wholeIo hwrites _ _ _ hwrite 0 (by decide) 0 hne
    none blankSection).1⟩

/-! ## Short writes -/

/-- If `sf_writeglobal` is a success, all bytes it has to write are in the State-File, and a read of it is a success with
the new fields. -/
def GlobalComplete (d : SfDescriptor) (file : List Byte) (p : SfSection) : Prop :=
  ∀ file' p', sfWriteglobal d file p = .returned (.success, file', p') →
    slice file' 0 (globalFormat none).rounded = p'.bytes.take (globalFormat none).rounded ∧
    ∀ r : SfDescriptor, r.Reads → ∀ expectedUuid, GenUuidExpected p expectedUuid → ∀ q, ∃ fuel q',
      sfReadglobal r file' q expectedUuid fuel = .returned (.success, q') ∧
        (globalFormat none).data q' = (globalFormat none).data p'

/-- The same for `sf_writehostspecific`. -/
def HostComplete (hostIndex : Nat) (d : SfDescriptor) (file : List Byte) (p : SfSection) : Prop :=
  ∀ file' p', sfWritehostspecific d file hostIndex p = .returned (.success, file', p') →
    slice file' (hostFormat hostIndex).offset (hostFormat hostIndex).rounded = p'.bytes.take (hostFormat hostIndex).rounded ∧
    ∀ r : SfDescriptor, r.Reads → ∀ q, ∃ fuel q',
      sfReadhostspecific r file' hostIndex q fuel = .returned (.success, q') ∧
        (hostFormat hostIndex).data q' = (hostFormat hostIndex).data p'

/-- A success means all of this exactly when the write is not short, or leaves out only bytes that the State-File holds
already. -/
theorem sf_write_complete_iff (d : SfDescriptor) (file : List Byte) (p : SfSection) :
    (GlobalComplete d file p ↔ (globalFormat none).RestInPlace d file p) ∧
      ∀ i, HostComplete i d file p ↔ (hostFormat i).RestInPlace d file p := by
  constructor
  · apply (globalFormat none).complete_iff
    intro file' hholds r hr expectedUuid hexpected q
    have hholds' : (globalFormat expectedUuid).Holds file' p := hholds
    obtain ⟨fuel, q', hread, hdata⟩ := hholds'.read hr (globalFormat_check hexpected) q
    exact ⟨fuel, q', hread, hdata.trans ((globalFormat none).data_written p).symm⟩
  · intro i
    apply (hostFormat i).complete_iff
    intro file' hholds r hr q
    obtain ⟨fuel, q', hread, hdata⟩ := hholds.read hr rfl q
    exact ⟨fuel, q', hread, hdata.trans ((hostFormat i).data_written p).symm⟩

/-- A record of host 0 with the weight 1 and nothing else. -/
def weightRecord : SfSection :=
  (hostFormat 0).setData blankSection { (hostFormat 0).data blankSection with
    body := { ((hostFormat 0).data blankSection).body with weight := 1 } }

/-- Of that record the first 512 bytes get into a State-File of zeros: the write is a success, and a read of it finds a
corruption. -/
theorem half_written_record :
    ¬HostComplete 0 ⟨true, fun _ => some 4095, some 512⟩ (List.replicate 5120 0) weightRecord := by
  intro h
  obtain ⟨-, hread⟩ := h _ _ (SfFormat.writeSection_eq ..)
  obtain ⟨fuel, q', hsuccess, -⟩ := hread wholeIo wholeIo_reads blankSection
  have hstatus := ((hostFormat 0).readSection_returned wholeIo_reads hsuccess).1
  -- the new checksum counts the weight, which is still the old one in the file
  revert hstatus
  decide +kernel

end Xha
