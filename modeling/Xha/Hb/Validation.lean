/-
The check of a received datagram (heartbeat.c): `is_valid_hb` and the part of `receive_hb` behind it, with the
places in the tables that they go to. The identifier of the sender is looked up at the index that the datagram
itself gives, and nothing bounds this index: a slot that is not configured holds zero bytes, which a datagram
with a zero `host_uuid` matches, and only such a one (`valid_hb_is_configured_iff`).
-/
import Xha.Config.Accepted
import Xha.Sm.Membership

namespace Xha

open CString

/-! ## Datagrams -/

/-- `HB_SIG`, the characters of 'hahx'. -/
def hbSig : MtcU32 := 0x68616878

/-- `sizeof(HB_PACKET)`. -/
def hbPacketSize : Nat := 744

/-- The part of an `HB_PACKET` that decides whether it is stored; the rest is only copied. -/
structure HbDatagram where
  signature : MtcU32
  sequence : MtcU32
  size : MtcU32
  generationUuid : MtcUuid
  hostUuid : MtcUuid
  hostIndex : MtcU32
  currentLiveset : HostMap
  proposedLiveset : HostMap
  fenceRequest : Bool
  generationUuid_length : generationUuid.length = mtcUuidSize
  hostUuid_length : hostUuid.length = mtcUuidSize

/-- The tables with a slot for each host. -/
inductive HbTable
  | hostInfo | sequence | timeLastHb | raw | smPhase | errString
  deriving DecidableEq

/-- A slot that the daemon goes to. The index is the loop counter when `sweep` is set. -/
structure HbAccess where
  table : HbTable
  index : Int
  sweep : Bool := false
  deriving DecidableEq

/-- The receiving daemon. The fields named `beyond` are what an index outside of the host table or of a host map
finds in the memory there. -/
structure HbReceiver where
  config : HaConfigData
  sequence : Int → MtcU32
  currentLiveset : HostMap
  fencing : FencingMode
  hostIdBeyond : Nat → MtcUuid
  packetBeyond : Int → Bool
  livesetBeyond : Int → Bool

namespace HbReceiver

variable (r : HbReceiver) (pkt : HbDatagram) (size : Int)

def hostnum : Nat := r.config.common.hostnum

/-- `_my_index`. -/
def myIndex : Nat := r.config.localConfig.localhostIndex.toNat

/-- `_host_info[index].host_id`. -/
def hostId (index : Nat) : MtcUuid :=
  if index < maxHostNum then (r.config.common.hostInfo index).hostId else r.hostIdBeyond index

/-- `MTC_HOSTMAP_ISON` with an index that need not be that of a host. -/
def isOnAt (beyond : Int → Bool) (b : HostMap) (index : Int) : Bool :=
  if 0 ≤ index ∧ index < maxHostNum then b.isOn index.toNat else beyond index

/-- `is_valid_hb`, and the slots it looks at. -/
def isValidHb : Bool × List HbAccess :=
  if size ≠ hbPacketSize then (false, [])
  else if pkt.signature ≠ hbSig then (false, [])
  else if pkt.size ≠ BitVec.ofNat 32 hbPacketSize then (false, [])
  else if uuidComp pkt.generationUuid r.config.common.generationUuid ≠ .eq then (false, [])
  else
    let read : List HbAccess := [{ table := .hostInfo, index := pkt.hostIndex.toNat }]
    if uuidComp pkt.hostUuid (r.hostId pkt.hostIndex.toNat) ≠ .eq then (false, read) else (true, read)

/-- `fm_index`: the index as a signed number. -/
def fmIndex : Int := pkt.hostIndex.toInt

/-- The packet is from a starting host that still counts as live. -/
def fromStarting : Bool :=
  !isOnAt r.packetBeyond pkt.currentLiveset (fmIndex pkt) && isOnAt r.livesetBeyond r.currentLiveset (fmIndex pkt)

/-- The host fences itself as the sender requests. -/
def fencesItself : Bool :=
  pkt.fenceRequest && isOnAt r.packetBeyond pkt.currentLiveset (fmIndex pkt) && !pkt.proposedLiveset.isOn r.myIndex &&
    r.fencing = .armed

/-- The slots that the update of the heartbeat data goes to. -/
def updateAccesses : List HbAccess :=
  { table := .timeLastHb, index := fmIndex pkt } ::
    ((List.range maxHostNum).flatMap fun index =>
      [{ table := .timeLastHb, index := index, sweep := true }, { table := .raw, index := r.myIndex }]) ++
    [{ table := .raw, index := fmIndex pkt }, { table := .smPhase, index := fmIndex pkt },
      { table := .errString, index := fmIndex pkt }]

/-- The slots that `receive_hb` goes to once the packet is valid. -/
def validAccesses : List HbAccess :=
  { table := .sequence, index := fmIndex pkt } ::
    if newerSequence (r.sequence (fmIndex pkt)) pkt.sequence then
      { table := .sequence, index := fmIndex pkt } ::
        if r.fromStarting pkt then [] else if r.fencesItself pkt then [] else r.updateAccesses pkt
    else []

/-- The slots that `is_valid_hb` and `receive_hb` behind it go to. -/
def accesses : List HbAccess :=
  (r.isValidHb pkt size).2 ++ if (r.isValidHb pkt size).1 then r.validAccesses pkt else []

/-! ## Senders -/

/-- The slot is that of a configured host. -/
def Configured (a : HbAccess) : Prop := 0 ≤ a.index ∧ a.index < r.hostnum

/-- The datagram names a configured host by its index and its identifier, and the pool. -/
structure Identified : Prop where
  index : pkt.hostIndex.toNat < r.hostnum
  host : pkt.hostUuid.map Char.toLower = (r.hostId pkt.hostIndex.toNat).map Char.toLower
  generation : pkt.generationUuid.map Char.toLower = r.config.common.generationUuid.map Char.toLower

/-- A check before the look at the host table refuses the datagram. -/
def Refused : Prop :=
  size ≠ hbPacketSize ∨ pkt.signature ≠ hbSig ∨ pkt.size ≠ BitVec.ofNat 32 hbPacketSize ∨
    uuidComp pkt.generationUuid r.config.common.generationUuid ≠ .eq

/-- The identifiers agree from the first zero byte of the `host_id` on, which the comparison does not look at. -/
def TailAgrees : Prop :=
  (pkt.hostUuid.drop (cut mtcUuidSize (r.hostId pkt.hostIndex.toNat)).length).map Char.toLower =
    ((r.hostId pkt.hostIndex.toNat).drop (cut mtcUuidSize (r.hostId pkt.hostIndex.toNat)).length).map Char.toLower

/-- A valid packet that is not stored: it is old, it is from a starting host, or the host fences itself. -/
def Dropped : Prop :=
  newerSequence (r.sequence (fmIndex pkt)) pkt.sequence = false ∨ r.fromStarting pkt = true ∨
    r.fencesItself pkt = true

instance : Decidable (r.Dropped pkt) := inferInstanceAs (Decidable (_ ∨ _))

/-! ## The checks -/

variable {r pkt size}

theorem isValidHb_of_refused (h : r.Refused pkt size) : r.isValidHb pkt size = (false, []) := by
  unfold isValidHb
  by_cases hlen : size = hbPacketSize
  · by_cases hsig : pkt.signature = hbSig
    · by_cases hsize : pkt.size = BitVec.ofNat 32 hbPacketSize
      · have hgen := ((h.resolve_left (not_not_intro hlen)).resolve_left (not_not_intro hsig)).resolve_left
          (not_not_intro hsize)
        simp [hgen]
      · simp [hsize]
    · simp [hsig]
  · simp [hlen]

theorem isValidHb_of_not_refused (h : ¬r.Refused pkt size) :
    r.isValidHb pkt size =
      (decide (uuidComp pkt.hostUuid (r.hostId pkt.hostIndex.toNat) = .eq),
        [{ table := .hostInfo, index := pkt.hostIndex.toNat }]) := by
  simp only [Refused, not_or, ne_eq, not_not] at h
  obtain ⟨hlen, hsig, hsize, hgen⟩ := h
  simp only [isValidHb, hlen, hsig, hsize, hgen, ne_eq, not_true_eq_false, if_false]
  by_cases heq : uuidComp pkt.hostUuid (r.hostId pkt.hostIndex.toNat) = .eq <;> simp [heq]

/-! ## Configured hosts -/

theorem hostnum_le : r.hostnum ≤ maxHostNum := r.config.common.hostnum_le

/-- The index of a configured host is not negative. -/
theorem fmIndex_eq (h : pkt.hostIndex.toNat < r.hostnum) : fmIndex pkt = pkt.hostIndex.toNat := by
  have h64 : pkt.hostIndex.toNat < 64 := lt_of_lt_of_le h hostnum_le
  rw [fmIndex, BitVec.toInt_eq_toNat_of_lt (by omega)]

theorem hostId_mem {index : Nat} (h : index < r.hostnum) : r.hostId index ∈ r.config.common.hostIds := by
  have hlt : index < r.config.common.host.length := h
  rw [hostId, if_pos (lt_of_lt_of_le h hostnum_le), HaConfigCommon.hostInfo, List.getD_eq_getElem?_getD,
    List.getElem?_eq_getElem hlt]
  exact List.mem_map_of_mem (List.getElem_mem hlt)

/-- A `host_id` without a zero byte is compared as a whole. -/
theorem tailAgrees_of_whole (h : WholeId (r.hostId pkt.hostIndex.toNat)) : r.TailAgrees pkt := by
  have hcut : (cut mtcUuidSize (r.hostId pkt.hostIndex.toNat)).length = mtcUuidSize := by rw [cut_full h.1 h.2, h.1]
  rw [TailAgrees, hcut, List.drop_of_length_le pkt.hostUuid_length.le, List.drop_of_length_le h.1.le]

/-- The datagram that passes the checks has the generation of the pool. -/
theorem generation_of_not_refused (hc : r.config.WellFormed) (h : ¬r.Refused pkt size) :
    pkt.generationUuid.map Char.toLower = r.config.common.generationUuid.map Char.toLower := by
  have hgen : uuidComp pkt.generationUuid r.config.common.generationUuid = .eq := by
    by_contra hne
    exact h (.inr (.inr (.inr hne)))
  rw [map_toLower_eq_iff pkt.generationUuid_length hc.generation.1]
  refine ⟨hgen, ?_⟩
  rw [cut_full hc.generation.1 hc.generation.2, hc.generation.1, List.drop_of_length_le pkt.generationUuid_length.le,
    List.drop_of_length_le hc.generation.1.le]

/-- What the comparison of the identifiers leaves open is what it does not look at. -/
theorem identified_iff (hc : r.config.WellFormed) (h : ¬r.Refused pkt size)
    (heq : uuidComp pkt.hostUuid (r.hostId pkt.hostIndex.toNat) = .eq) (hindex : pkt.hostIndex.toNat < r.hostnum) :
    r.Identified pkt ↔ r.TailAgrees pkt := by
  have hid := map_toLower_eq_iff pkt.hostUuid_length (hc.hostId _ (hostId_mem hindex))
  constructor
  · intro hi
    exact (hid.mp hi.host).2
  · intro ht
    exact ⟨hindex, hid.mpr ⟨heq, ht⟩, generation_of_not_refused hc h⟩

/-! ## The slots -/

/-- The loop goes over all slots; everything else goes to those of the sender and of the local host. -/
theorem mem_updateAccesses {a : HbAccess} (h : a ∈ r.updateAccesses pkt) :
    ((a.index = fmIndex pkt ∨ a.index = r.myIndex) ∧ a.sweep = false) ∨
      ∃ index < maxHostNum, a = ⟨.timeLastHb, index, true⟩ := by
  simp only [updateAccesses, List.cons_append, List.mem_cons, List.mem_append, List.mem_flatMap, List.mem_range,
    List.not_mem_nil, or_false] at h
  rcases h with rfl | ⟨index, hi, rfl | rfl⟩ | rfl | rfl | rfl
  · exact .inl ⟨.inl rfl, rfl⟩
  · exact .inr ⟨index, hi, rfl⟩
  · exact .inl ⟨.inr rfl, rfl⟩
  all_goals exact .inl ⟨.inl rfl, rfl⟩

theorem sweep_mem {index : Nat} (hi : index < maxHostNum) : ⟨.timeLastHb, index, true⟩ ∈ r.updateAccesses pkt :=
  List.mem_cons_of_mem _ (List.mem_append_left _ (List.mem_flatMap.mpr ⟨index, List.mem_range.mpr hi, List.mem_cons_self⟩))

/-- The update is only reached with a packet that is stored. -/
theorem validAccesses_eq :
    r.validAccesses pkt = { table := .sequence, index := fmIndex pkt } ::
      if newerSequence (r.sequence (fmIndex pkt)) pkt.sequence then
        { table := .sequence, index := fmIndex pkt } :: if r.Dropped pkt then [] else r.updateAccesses pkt
      else [] := by
  rw [validAccesses]
  split
  · rename_i hnew
    simp only [Dropped, hnew, Bool.true_eq_false, false_or]
    by_cases hstart : r.fromStarting pkt = true
    · simp [hstart]
    · by_cases hfence : r.fencesItself pkt = true <;> simp [hstart, hfence]
  · rfl

theorem mem_validAccesses {a : HbAccess} (h : a ∈ r.validAccesses pkt) :
    ((a.index = fmIndex pkt ∨ a.index = r.myIndex) ∧ a.sweep = false) ∨
      ¬r.Dropped pkt ∧ ∃ index < maxHostNum, a = ⟨.timeLastHb, index, true⟩ := by
  rw [validAccesses_eq, List.mem_cons] at h
  rcases h with rfl | h
  · exact .inl ⟨.inl rfl, rfl⟩
  split at h
  · rcases List.mem_cons.mp h with rfl | h
    · exact .inl ⟨.inl rfl, rfl⟩
    split at h
    · cases h
    · rename_i hd
      exact (mem_updateAccesses h).imp_right fun hs => ⟨hd, hs⟩
  · cases h

/-- The loop over all slots is the only one that leaves the configured hosts. -/
theorem validAccesses_configured (hc : r.config.WellFormed) (hindex : pkt.hostIndex.toNat < r.hostnum)
    {a : HbAccess} (ha : a ∈ r.validAccesses pkt) (hsweep : a.sweep = false) : r.Configured a := by
  rcases mem_validAccesses ha with ⟨hi | hi, -⟩ | ⟨-, i, -, rfl⟩
  · rw [Configured, hi, fmIndex_eq hindex]
    exact ⟨Int.natCast_nonneg _, Int.ofNat_lt.mpr hindex⟩
  · rw [Configured, hi]
    exact ⟨Int.natCast_nonneg _, Int.ofNat_lt.mpr hc.localhost⟩
  · cases hsweep

/-- It does so with every packet that is stored, unless all slots are configured. -/
theorem validAccesses_configured_iff (hc : r.config.WellFormed) (hindex : pkt.hostIndex.toNat < r.hostnum) :
    (∀ a ∈ r.validAccesses pkt, r.Configured a) ↔ r.Dropped pkt ∨ r.hostnum = maxHostNum := by
  constructor
  · intro h
    by_contra hd
    obtain ⟨hd, hne⟩ := not_or.mp hd
    have hnew : newerSequence (r.sequence (fmIndex pkt)) pkt.sequence = true := by
      simpa using (not_or.mp hd).1
    have hlt : r.hostnum < maxHostNum := lt_of_le_of_ne hostnum_le hne
    have hmem : ⟨.timeLastHb, r.hostnum, true⟩ ∈ r.validAccesses pkt := by
      rw [validAccesses_eq, if_pos hnew, if_neg hd]
      exact List.mem_cons_of_mem _ (List.mem_cons_of_mem _ (sweep_mem hlt))
    exact absurd (h _ hmem).2 (lt_irrefl _)
  · intro h a ha
    rcases mem_validAccesses ha with ⟨-, hsweep⟩ | ⟨hd, i, hi, rfl⟩
    · exact validAccesses_configured hc hindex ha hsweep
    · have hall : r.hostnum = maxHostNum := h.resolve_left hd
      refine ⟨Int.natCast_nonneg _, ?_⟩
      rw [hall]
      exact Int.ofNat_lt.mpr hi

/-! ## The packets of the domain model -/

/-- The domain model hears nothing new of a packet that is old, from a starting host, or makes the host fence
itself. -/
theorem receiveHb_unheard_iff {me : Nat} {w : DomainWorld} {packet : HbPacket}
    (henabled : w.daemon.hb.ctl.enableHbReceive = true) :
    (∀ w', w.receiveHb me packet = some w' → w'.heard = w.heard) ↔
      newerSequence (BitVec.ofNat 32 (w.hbSequence packet.hostIndex)) (BitVec.ofNat 32 packet.sequence) = false ∨
      packet.fromStarting w.host = true ∨
      (packet.fenceRequest = true ∧ packet.raw.currentLiveset.isOn packet.hostIndex = true ∧
        packet.raw.proposedLiveset.isOn me = false ∧ w.smvar.fencing = .armed) := by
  have hrest : ∀ s : Nat → Nat, packet.fromStarting { w with hbSequence := s }.host = packet.fromStarting w.host :=
    fun _ => rfl
  have hheard :
      Function.update w.heard packet.hostIndex ((w.daemon.clock, packet) :: w.heard packet.hostIndex) ≠ w.heard := by
    intro he
    have hcons := congrFun he packet.hostIndex
    rw [Function.update_self] at hcons
    exact List.cons_ne_self _ _ hcons
  unfold DomainWorld.receiveHb
  simp only [henabled, Bool.true_eq_false, if_false, hrest]
  cases newerSequence (BitVec.ofNat 32 (w.hbSequence packet.hostIndex)) (BitVec.ofNat 32 packet.sequence) with
  | false => simp
  | true =>
    by_cases hstart : packet.fromStarting w.host = true
    · simp [hstart]
    · simp only [hstart, if_true, if_false, Bool.true_eq_false, Bool.false_eq_true, false_or]
      split
      · rename_i hfence
        exact iff_of_true (fun _ hn => by cases hn) hfence
      · rename_i hfence
        exact iff_of_false (fun h => hheard (h _ rfl)) hfence

/-- The receiver and the datagram are those of a step of the domain model. -/
structure Shows (r : HbReceiver) (pkt : HbDatagram) (w : DomainWorld) (packet : HbPacket) : Prop where
  index : packet.hostIndex = pkt.hostIndex.toNat
  sequence : BitVec.ofNat 32 packet.sequence = pkt.sequence
  currentLiveset : packet.raw.currentLiveset = pkt.currentLiveset
  proposedLiveset : packet.raw.proposedLiveset = pkt.proposedLiveset
  fenceRequest : packet.fenceRequest = pkt.fenceRequest
  last : BitVec.ofNat 32 (w.hbSequence packet.hostIndex) = r.sequence (fmIndex pkt)
  liveset : w.daemon.sm.currentLiveset = r.currentLiveset
  fencing : w.smvar.fencing = r.fencing

theorem isOnAt_configured {index : Nat} (h : index < r.hostnum) (beyond : Int → Bool) (b : HostMap) :
    isOnAt beyond b index = b.isOn index := by
  have h64 : (index : Int) < maxHostNum := Int.ofNat_lt.mpr (lt_of_lt_of_le h hostnum_le)
  rw [isOnAt, if_pos ⟨Int.natCast_nonneg _, h64⟩, Int.toNat_natCast]

/-- From a configured host, the datagrams that are dropped are the packets that the domain model does not hear. -/
theorem Shows.dropped_iff {w : DomainWorld} {packet : HbPacket} (h : r.Shows pkt w packet)
    (hindex : pkt.hostIndex.toNat < r.hostnum) (henabled : w.daemon.hb.ctl.enableHbReceive = true) :
    r.Dropped pkt ↔ ∀ w', w.receiveHb r.myIndex packet = some w' → w'.heard = w.heard := by
  have hfm : fmIndex pkt = packet.hostIndex := (fmIndex_eq hindex).trans (congrArg Nat.cast h.index.symm)
  have hlt : packet.hostIndex < r.hostnum := h.index ▸ hindex
  have hstart : packet.fromStarting w.host = r.fromStarting pkt := by
    rw [HbPacket.fromStarting, fromStarting, hfm, isOnAt_configured hlt, isOnAt_configured hlt, h.currentLiveset,
      ← h.liveset]
    rfl
  have hfence : (packet.fenceRequest = true ∧ packet.raw.currentLiveset.isOn packet.hostIndex = true ∧
      packet.raw.proposedLiveset.isOn r.myIndex = false ∧ w.smvar.fencing = .armed) ↔ r.fencesItself pkt = true := by
    rw [fencesItself, hfm, isOnAt_configured hlt, h.currentLiveset, h.proposedLiveset, h.fenceRequest, h.fencing]
    simp [and_assoc]
  rw [receiveHb_unheard_iff henabled, Dropped, ← h.last, ← h.sequence, ← hstart, hfence]

/-! ## Acceptance -/

/-- With a slot read by the checks, and those of a valid packet. -/
theorem accesses_of_not_refused (h : ¬r.Refused pkt size) :
    r.accesses pkt size = { table := .hostInfo, index := pkt.hostIndex.toNat } ::
      if uuidComp pkt.hostUuid (r.hostId pkt.hostIndex.toNat) = .eq then r.validAccesses pkt else [] := by
  simp only [accesses, isValidHb_of_not_refused h, decide_eq_true_eq, List.singleton_append]

/-- A property of the slots and of the datagrams that are valid, read off the checks. -/
theorem accepted_iff (r : HbReceiver) (pkt : HbDatagram) (size : Int) (hc : r.config.WellFormed)
    {p : HbAccess → Prop} {q : Prop}
    (hp : ∀ a, a.sweep = false → (p a ↔ r.Configured a))
    (hq : pkt.hostIndex.toNat < r.hostnum → ((∀ a ∈ r.validAccesses pkt, p a) ↔ q)) :
    (∀ a ∈ r.accesses pkt size, p a) ∧ ((r.isValidHb pkt size).1 = true → r.Identified pkt) ↔
      r.Refused pkt size ∨ pkt.hostIndex.toNat < r.hostnum ∧
        (uuidComp pkt.hostUuid (r.hostId pkt.hostIndex.toNat) ≠ .eq ∨ r.TailAgrees pkt ∧ q) := by
  by_cases href : r.Refused pkt size
  · simp [accesses, isValidHb_of_refused href, href]
  · rw [accesses_of_not_refused href, isValidHb_of_not_refused href]
    have hread : p { table := .hostInfo, index := pkt.hostIndex.toNat } ↔ pkt.hostIndex.toNat < r.hostnum := by
      rw [hp _ rfl, Configured, Int.ofNat_lt]
      exact and_iff_right (Int.natCast_nonneg _)
    by_cases hindex : pkt.hostIndex.toNat < r.hostnum
    · by_cases heq : uuidComp pkt.hostUuid (r.hostId pkt.hostIndex.toNat) = .eq
      · simp [heq, href, hindex, hread, hq hindex, identified_iff hc href heq hindex, and_comm]
      · simp [heq, hindex, hread]
    · simp [href, hindex, hread]

end HbReceiver

/-- Exactly when a heartbeat is only accepted from a configured host: the datagram is refused before the look at
the host table, or its index is that of a configured host and its identifier is not taken for a longer one. With the
loop that ages the time stamps of all slots, whose index is its counter, the packet is also not stored, or all slots
are those of configured hosts. -/
theorem valid_hb_is_configured_iff {getaddrinfo : CString → Option AddrInfo} {file : ConfigFile} (r : HbReceiver)
    (pkt : HbDatagram) (size : Int) (h : interpretConfigFile getaddrinfo file = .ok r.config) :
    (((∀ a ∈ r.accesses pkt size, a.sweep = false → r.Configured a) ∧
        ((r.isValidHb pkt size).1 = true → r.Identified pkt)) ↔
      r.Refused pkt size ∨ pkt.hostIndex.toNat < r.hostnum ∧
        (uuidComp pkt.hostUuid (r.hostId pkt.hostIndex.toNat) ≠ .eq ∨ r.TailAgrees pkt)) ∧
    (((∀ a ∈ r.accesses pkt size, r.Configured a) ∧ ((r.isValidHb pkt size).1 = true → r.Identified pkt)) ↔
      r.Refused pkt size ∨ pkt.hostIndex.toNat < r.hostnum ∧
        (uuidComp pkt.hostUuid (r.hostId pkt.hostIndex.toNat) ≠ .eq ∨
          r.TailAgrees pkt ∧ (r.Dropped pkt ∨ r.hostnum = maxHostNum))) := by
  have hc : r.config.WellFormed := interpretConfigFile_wellFormed h
  refine ⟨?_, r.accepted_iff pkt size hc (fun _ _ => Iff.rfl) (r.validAccesses_configured_iff hc)⟩
  have hplain := r.accepted_iff pkt size hc (p := fun a => a.sweep = false → r.Configured a) (q := True)
    (fun a ha => by simp [ha]) fun hindex => by
      simpa using fun a ha hsweep => r.validAccesses_configured hc hindex ha hsweep
  simpa only [and_true] using hplain

/-! ### A pool of two hosts -/

/-- The generation of the pool. -/
def poolGeneration : MtcUuid := "5b1d0a6e94c24f0f8a8e0e9f6c1d2b3a".toList

/-- The receiver has heard of nobody and is not armed. -/
def poolReceiver (c : HaConfigData) : HbReceiver where
  config := c
  sequence := fun _ => 0
  currentLiveset := .empty
  fencing := .none
  hostIdBeyond := fun _ => mtcUuidCleared
  packetBeyond := fun _ => false
  livesetBeyond := fun _ => false

/-- A datagram of the pool. -/
def poolDatagram (hostUuid : MtcUuid) (hostIndex : MtcU32) (h : hostUuid.length = mtcUuidSize) : HbDatagram where
  signature := hbSig
  sequence := 1
  size := BitVec.ofNat 32 hbPacketSize
  generationUuid := poolGeneration
  hostUuid := hostUuid
  hostIndex := hostIndex
  currentLiveset := .empty
  proposedLiveset := .empty
  fenceRequest := false
  generationUuid_length := by decide
  hostUuid_length := h

/-- The first host of a pool of two accepts its configuration, and its place is in the table. -/
theorem poolPair_accepted :
    ∃ c, interpretConfigFile poolAddress (.document (poolDoc [firstHost, secondHost] [] firstHost.1)) = .ok c ∧
      c.common.hostnum = 2 ∧ c.common.generationUuid = poolGeneration ∧
      c.common.hostIds[c.localConfig.localhostIndex.toNat]? = some (packedId firstHost.1) := by
  have hl := poolDoc_lists [firstHost, secondHost] [] firstHost.1
  have haddr : ∀ host ∈ [firstHost, secondHost], ∃ addr, poolAddress host.2 = some addr ∧ addr ≠ .other :=
    fun host hhost => poolAddress_some host (by simpa using hhost)
  obtain ⟨c, hc⟩ := hl.accepted (poolDoc_complete _ haddr nofun) (by decide) (by decide) (by decide)
  obtain ⟨hperm, -, hplace⟩ := hl.table (by decide) (by decide) hc
  refine ⟨c, hc, ?_, ?_, hplace⟩
  · rw [← HaConfigCommon.length_hostIds, hperm.length_eq]
    rfl
  · rw [walkCommonConfig_generation (hl.walked hc).1, poolCommon_named]
    decide

/-- The datagrams of the pool pass the checks before the host table. -/
theorem poolDatagram_not_refused {c : HaConfigData} (hgen : c.common.generationUuid = poolGeneration) {hostUuid : MtcUuid}
    {hostIndex : MtcU32} (h : hostUuid.length = mtcUuidSize) :
    ¬(poolReceiver c).Refused (poolDatagram hostUuid hostIndex h) hbPacketSize := by
  rintro (hne | hne | hne | hne)
  · exact hne rfl
  · exact hne rfl
  · exact hne rfl
  · refine hne ?_
    rw [show (poolReceiver c).config.common.generationUuid = poolGeneration from hgen]
    exact uuidComp_self _

/-- The heartbeat of a host of the pool is valid, and it goes to the slots of configured hosts. -/
theorem valid_hb_is_configured_iff_first :
    ∃ c, interpretConfigFile poolAddress (.document (poolDoc [firstHost, secondHost] [] firstHost.1)) = .ok c ∧
      let r := poolReceiver c
      let pkt := poolDatagram (packedId firstHost.1) c.localConfig.localhostIndex (by decide)
      (∀ a ∈ r.accesses pkt hbPacketSize, a.sweep = false → r.Configured a) ∧
        (r.isValidHb pkt hbPacketSize).1 = true ∧ r.Identified pkt := by
  obtain ⟨c, hc, hnum, hgen, hplace⟩ := poolPair_accepted
  refine ⟨c, hc, ?_⟩
  intro r pkt
  have hwf : c.WellFormed := interpretConfigFile_wellFormed hc
  have hlt : c.localConfig.localhostIndex.toNat < c.common.host.length := hwf.localhost
  -- the slot of the local host holds its identifier
  have hid : r.hostId pkt.hostIndex.toNat = packedId firstHost.1 := by
    have hslot : (poolReceiver c).hostId c.localConfig.localhostIndex.toNat = packedId firstHost.1 := by
      rw [HaConfigCommon.hostIds, List.getElem?_map, List.getElem?_eq_getElem hlt] at hplace
      rw [HbReceiver.hostId, if_pos (lt_of_lt_of_le hlt c.common.hostnum_le), poolReceiver, HaConfigCommon.hostInfo,
        List.getD_eq_getElem?_getD, List.getElem?_eq_getElem hlt]
      exact Option.some.inj hplace
    exact hslot
  have htail : r.TailAgrees pkt :=
    HbReceiver.tailAgrees_of_whole (by rw [hid]; exact ⟨by decide, nul_notMem_packedId _⟩)
  obtain ⟨hslots, hident⟩ := ((valid_hb_is_configured_iff r pkt hbPacketSize hc).1).mpr (.inr ⟨hlt, .inr htail⟩)
  have hvalid : (r.isValidHb pkt hbPacketSize).1 = true := by
    rw [HbReceiver.isValidHb_of_not_refused (poolDatagram_not_refused hgen _), hid]
    exact decide_eq_true (uuidComp_self (packedId firstHost.1))
  exact ⟨hslots, hvalid, hident hvalid⟩

/-- A datagram with index 5 and zero bytes for its identifier is valid in a pool of two hosts: the slot is not
configured, and it is written to in the tables. -/
theorem stray_datagram_is_valid :
    ∃ c, interpretConfigFile poolAddress (.document (poolDoc [firstHost, secondHost] [] firstHost.1)) = .ok c ∧
      let r := poolReceiver c
      let pkt := poolDatagram mtcUuidCleared 5 (by decide)
      r.hostnum = 2 ∧ (r.isValidHb pkt hbPacketSize).1 = true ∧ ¬r.Identified pkt ∧
        { table := .sequence, index := 5 } ∈ r.accesses pkt hbPacketSize ∧
        { table := .timeLastHb, index := 5 } ∈ r.accesses pkt hbPacketSize ∧
        { table := .raw, index := 5 } ∈ r.accesses pkt hbPacketSize := by
  obtain ⟨c, hc, hnum, hgen, -⟩ := poolPair_accepted
  refine ⟨c, hc, ?_⟩
  intro r pkt
  have hnot : ¬r.Refused pkt hbPacketSize := poolDatagram_not_refused hgen _
  have hcleared : r.hostId pkt.hostIndex.toNat = mtcUuidCleared := by
    have hlen : c.common.host.length ≤ 5 := by rw [show c.common.host.length = 2 from hnum]; decide
    change (c.common.host.getD 5 .cleared).hostId = mtcUuidCleared
    rw [List.getD_eq_getElem?_getD, List.getElem?_eq_none hlen]
    rfl
  have heq : uuidComp pkt.hostUuid (r.hostId pkt.hostIndex.toNat) = .eq := by
    rw [hcleared]
    exact uuidComp_self mtcUuidCleared
  have haccesses : r.accesses pkt hbPacketSize =
      { table := .hostInfo, index := pkt.hostIndex.toNat } :: { table := .sequence, index := 5 } ::
        { table := .sequence, index := 5 } :: r.updateAccesses pkt := by
    have hnew : newerSequence (r.sequence (HbReceiver.fmIndex pkt)) pkt.sequence = true := rfl
    have hstart : r.fromStarting pkt = false := by
      simp [HbReceiver.fromStarting, HbReceiver.isOnAt, r, poolReceiver]
    have hfence : r.fencesItself pkt = false := rfl
    rw [HbReceiver.accesses_of_not_refused hnot, if_pos heq, HbReceiver.validAccesses, if_pos hnew, hstart, hfence]
    rfl
  refine ⟨hnum, ?_, ?_, ?_, ?_, ?_⟩
  · rw [HbReceiver.isValidHb_of_not_refused hnot]
    exact decide_eq_true heq
  · intro hi
    exact absurd (lt_of_lt_of_eq hi.index hnum) (by decide)
  all_goals
    rw [haccesses]
    simp [HbReceiver.updateAccesses, HbReceiver.fmIndex, pkt, poolDatagram]

end Xha
