/-
The numbering of the hosts: every document that lists the same HostIDs gives the same host table, sorted
by HostID, and the local index is the place of the local HostID in it (`host_numbering`). First what each loop of the
walk does to the host identifiers and to the local index, then the sort, then whole documents: two sorted tables of the
same identifiers are one.
-/
import Mathlib.Data.List.Sort
import Xha.Config.File
import Xha.Lib.Loop
import Xha.Lib.SortedRank

namespace Xha

open CString Loop

/-! ## HostIDs -/

/-- The characters of a HostID that are kept. -/
def packedId (txt : CString) : MtcUuid := txt.chars.filter (· ≠ '-')

/-- A HostID has 32 characters that are kept. -/
def ValidId (txt : CString) : Prop := (packedId txt).length = mtcUuidSize

instance (txt : CString) : Decidable (ValidId txt) := inferInstanceAs (Decidable (_ = _))

theorem nul_notMem_packedId (txt : CString) : '\x00' ∉ packedId txt :=
  fun h => txt.no_nul (List.mem_of_mem_filter h)

theorem packUuid_eq (packedUuid src : List Char) (h : packedUuid.length ≤ mtcUuidSize) :
    packUuid packedUuid src =
      (decide (mtcUuidSize < (packedUuid ++ src.filter (· ≠ '-')).length),
        (packedUuid ++ src.filter (· ≠ '-')).take mtcUuidSize) := by
  induction src generalizing packedUuid with
  | nil => simp [packUuid, h]
  | cons c src ih =>
    rw [packUuid]
    by_cases hc : c = '-'
    · rw [if_pos hc, ih _ h]
      simp [hc]
    · rw [if_neg hc]
      split
      · rename_i hlt
        rw [ih _ (by rw [List.length_append, List.length_singleton]; exact hlt)]
        simp [hc]
      · rename_i hge
        have hl : packedUuid.length = mtcUuidSize := by omega
        simp [hc, hl]

/-- What `uuid_strcpy` stores: 32 characters, cut off or filled up with zero bytes. -/
theorem uuidStrcpy_eq (txt : CString) :
    uuidStrcpy txt =
      (if (packedId txt).length = mtcUuidSize then mtcSuccess else mtcErrorCfInvalidFormat,
        (packedId txt).take mtcUuidSize ++ List.replicate (mtcUuidSize - (packedId txt).length) '\x00') := by
  have h := packUuid_eq [] txt.chars (Nat.zero_le _)
  rw [List.nil_append] at h
  have hpack : packUuid [] txt.chars =
      (decide (mtcUuidSize < (packedId txt).length), (packedId txt).take mtcUuidSize) := h
  rw [uuidStrcpy, hpack]
  rcases Nat.lt_trichotomy mtcUuidSize (packedId txt).length with hl | hl | hl
  · simp [hl, Nat.ne_of_gt hl, Nat.sub_eq_zero_of_le hl.le]
  · simp [← hl]
  · simp [hl, Nat.ne_of_lt hl, Nat.not_lt_of_lt hl, List.take_of_length_le hl.le]

/-- A valid HostID is stored without its dashes. -/
theorem uuidStrcpy_valid {txt : CString} (h : ValidId txt) : uuidStrcpy txt = (mtcSuccess, packedId txt) := by
  have hl : (packedId txt).length = mtcUuidSize := h
  simp [uuidStrcpy_eq, hl, List.take_of_length_le hl.le]

theorem uuidStrcpy_success {txt : CString} : (uuidStrcpy txt).1 = mtcSuccess ↔ ValidId txt := by
  rw [uuidStrcpy_eq, ValidId]
  split <;> simp_all [mtcSuccess, mtcErrorCfInvalidFormat]

theorem ValidId.head_ne {txt : CString} (h : ValidId txt) : (packedId txt).headD '\x00' ≠ '\x00' := by
  have hl : (packedId txt).length = mtcUuidSize := h
  have h0 := nul_notMem_packedId txt
  cases hp : packedId txt with
  | nil => rw [hp] at hl; cases hl
  | cons a s =>
    rw [hp] at h0
    exact fun ha => h0 (by simpa using Or.inl ha.symm)

/-- A text that is not empty does not become empty in an array of two characters or more. -/
theorem copyText_head_ne {len : Nat} {txt : CString} (hlen : 2 ≤ len) (h : txt.chars ≠ []) :
    (copyText len txt).headD '\x00' ≠ '\x00' := by
  have h0 := txt.no_nul
  unfold copyText
  cases hc : txt.chars with
  | nil => exact absurd hc h
  | cons a s =>
    rw [hc] at h0
    have ha : a ≠ '\x00' := fun ha => h0 (by simpa using Or.inl ha.symm)
    split
    · exact ha
    · obtain ⟨n, hn⟩ : ∃ n, len - 1 = n + 1 := ⟨len - 2, by omega⟩
      rw [hn]
      exact ha

/-- No code of `uuid_strcpy` is negative. -/
theorem uuidStrcpy_nonneg (txt : CString) : ¬(uuidStrcpy txt).1 < 0 := by
  rw [uuidStrcpy_eq]
  split <;> simp [mtcSuccess, mtcErrorCfInvalidFormat]

/-! ## The host table -/

/-- The child elements of a name, in order. -/
def XmlNode.named (cur : XmlNode) (name : String) : List XmlNode := cur.children.filter fun sub => sub.name = name

theorem mem_named {cur sub : XmlNode} {name : String} :
    sub ∈ cur.named name ↔ sub ∈ cur.children ∧ sub.name = name := by
  rw [XmlNode.named, List.mem_filter, decide_eq_true_iff]

/-- The text of the last element of a name. -/
def lastText (subs : List XmlNode) (name : String) : Option CString :=
  (subs.filter fun sub => sub.name = name).getLast?.bind (·.txt)

theorem lastText_append_pos {subs : List XmlNode} {sub : XmlNode} {name : String} (h : sub.name = name) :
    lastText (subs ++ [sub]) name = sub.txt := by
  rw [lastText, List.filter_append, List.filter_cons_of_pos (by simp [h]), List.filter_nil, List.getLast?_concat,
    Option.bind_some]

theorem lastText_append_neg {subs : List XmlNode} {sub : XmlNode} {name : String} (h : sub.name ≠ name) :
    lastText (subs ++ [sub]) name = lastText subs name := by
  rw [lastText, List.filter_append, List.filter_cons_of_neg (by simp [h]), List.filter_nil, List.append_nil, lastText]

/-- The HostID that a `host` element leaves in its slot: that of its last `HostID`. -/
def hostIdOf (cur : XmlNode) : MtcUuid :=
  (cur.named "HostID").foldl (fun id sub => sub.txt.elim id fun txt => (uuidStrcpy txt).2) mtcUuidCleared

section

variable {getaddrinfo : CString → Option AddrInfo}

theorem hostElement_hostId {info info' : HaConfigHostInfo} {sub : XmlNode}
    (h : hostElement getaddrinfo info sub = .ok info') :
    info'.hostId = if sub.name = "HostID" then sub.txt.elim info.hostId fun txt => (uuidStrcpy txt).2
      else info.hostId := by
  unfold hostElement at h
  split
  · rename_i hid
    rw [if_pos hid] at h
    cases htxt : sub.txt with
    | none => simp [htxt] at h
    | some txt =>
      simp only [htxt, if_neg (uuidStrcpy_nonneg txt), Except.ok.injEq] at h
      rw [← h]
      rfl
  · rename_i hid
    rw [if_neg hid] at h
    repeat' split at h
    all_goals first | (cases h; rfl) | cases h

/-- A `host` element adds what its children say to the table. -/
theorem walkHostConfig_host {c c' : HaConfigCommon} {cur : XmlNode} (h : walkHostConfig getaddrinfo c cur = .ok c') :
    ∃ info, cur.children.foldlM (hostElement getaddrinfo) .cleared = .ok info ∧ c'.host = c.host ++ [info] := by
  unfold walkHostConfig at h
  split at h
  · cases h
  · cases hf : cur.children.foldlM (hostElement getaddrinfo) .cleared with
    | error ret => rw [hf] at h; cases h
    | ok info =>
      rw [hf] at h
      cases h
      exact ⟨info, rfl, rfl⟩

theorem parameterElement_host {c c' : HaConfigCommon} {sub : XmlNode} (h : parameterElement c sub = .ok c') :
    c'.host = c.host := by
  unfold parameterElement at h
  repeat' split at h
  all_goals first | (cases h; rfl) | cases h

theorem commonElement_host {c c' : HaConfigCommon} {sub : XmlNode} (h : commonElement getaddrinfo c sub = .ok c') :
    if sub.name = "host" then
      ∃ info, sub.children.foldlM (hostElement getaddrinfo) .cleared = .ok info ∧ c'.host = c.host ++ [info]
    else c'.host = c.host := by
  unfold commonElement at h
  by_cases hid : sub.name = "host"
  · rw [if_pos hid]
    simp only [hid, String.reduceEq, if_false, if_true] at h
    exact walkHostConfig_host h
  · rw [if_neg hid]
    rw [if_neg hid] at h
    by_cases hp : sub.name = "parameters"
    · simp only [hp, String.reduceEq, if_false, if_true] at h
      exact foldlM_inv (fun d : HaConfigCommon => d.host = c.host) h rfl fun x _ t t' ht => (parameterElement_host ht).trans
    · rw [if_neg hp] at h
      dsimp only at h
      repeat' split at h
      all_goals first | (cases h; rfl) | cases h

theorem hostElement_foldlM_hostId {cur : XmlNode} {info : HaConfigHostInfo}
    (h : cur.children.foldlM (hostElement getaddrinfo) .cleared = .ok info) : info.hostId = hostIdOf cur := by
  rw [hostIdOf, XmlNode.named, List.foldl_filter]
  refine foldlM_proj (·.hostId) _ h fun t sub t' ht => ?_
  simpa using hostElement_hostId ht

/-- A `host` element adds its HostID to the table. -/
theorem commonElement_hostIds {c c' : HaConfigCommon} {sub : XmlNode}
    (h : commonElement getaddrinfo c sub = .ok c') :
    c'.hostIds = if sub.name = "host" then c.hostIds ++ [hostIdOf sub] else c.hostIds := by
  have hstep := commonElement_host h
  unfold HaConfigCommon.hostIds
  split at hstep
  · rename_i hid
    obtain ⟨info, hinfo, hhost⟩ := hstep
    rw [if_pos hid, hhost, List.map_append, List.map_singleton, hostElement_foldlM_hostId hinfo]
  · rename_i hid
    rw [if_neg hid, hstep]

/-- The walk over a common section is a run over its elements, and the table is sorted at its end. -/
theorem walkCommonConfig_ok {c c' : HaConfigCommon} {cur : XmlNode}
    (h : walkCommonConfig getaddrinfo c cur = .ok c') :
    ∃ d, cur.children.foldlM (commonElement getaddrinfo) c = .ok d ∧ c' = d.sortHosts := by
  unfold walkCommonConfig at h
  cases hf : cur.children.foldlM (commonElement getaddrinfo) c with
  | error ret => rw [hf] at h; cases h
  | ok d =>
    rw [hf] at h
    cases h
    exact ⟨d, rfl, rfl⟩

/-- The table holds the HostIDs of the `host` elements, in some order. -/
theorem walkCommonConfig_perm {c c' : HaConfigCommon} {cur : XmlNode}
    (h : walkCommonConfig getaddrinfo c cur = .ok c') :
    c'.hostIds.Perm (c.hostIds ++ (cur.named "host").map hostIdOf) := by
  obtain ⟨d, hf, rfl⟩ := walkCommonConfig_ok h
  have hd : d.hostIds = c.hostIds ++ (cur.named "host").map hostIdOf := by
    rw [foldlM_proj (·.hostIds) (fun ids sub => if sub.name = "host" then ids ++ [hostIdOf sub] else ids) hf
      fun _ _ _ => commonElement_hostIds, XmlNode.named]
    generalize c.hostIds = ids
    induction cur.children generalizing ids with
    | nil => simp
    | cons sub l ih => by_cases hn : sub.name = "host" <;> simp [hn, ih]
  rw [← hd]
  exact (List.mergeSort_perm _ _).map _

/-- The table is sorted. -/
theorem walkCommonConfig_sorted {c c' : HaConfigCommon} {cur : XmlNode}
    (h : walkCommonConfig getaddrinfo c cur = .ok c') :
    c'.hostIds.Pairwise fun s t => strncmp mtcUuidSize s t ≠ .gt := by
  obtain ⟨d, hf, rfl⟩ := walkCommonConfig_ok h
  rw [HaConfigCommon.hostIds, List.pairwise_map]
  have hs := @List.pairwise_mergeSort _ (fun h1 h2 => decide (hostInfoCompar h1 h2 ≠ .gt))
    (fun a b c hab hbc => decide_eq_true (strncmp_trans (of_decide_eq_true hab) (of_decide_eq_true hbc)))
    (fun a b => by
      rw [Bool.or_eq_true, decide_eq_true_iff, decide_eq_true_iff]
      exact strncmp_total _ _ _) d.host
  exact hs.imp of_decide_eq_true

end

/-! ## The local index -/

/-- The children of the `localhost` elements of a `local-config` element, in order. -/
def localElements (cur : XmlNode) : List XmlNode := (cur.named "localhost").flatMap (·.children)

/-- The two nested loops of `walk_local_config` are one. -/
theorem walkLocalConfig_eq (c : HaConfigCommon) (l : HaConfigLocal) (cur : XmlNode) :
    walkLocalConfig c l cur = (localElements cur).foldlM (localhostElement c) l := by
  unfold walkLocalConfig localElements XmlNode.named
  induction cur.children generalizing l with
  | nil => rfl
  | cons sub rest ih =>
    by_cases hn : sub.name = "localhost"
    · rw [List.foldlM_cons, if_pos hn, List.filter_cons_of_pos (by simp [hn]), List.flatMap_cons, List.foldlM_append]
      exact bind_congr ih
    · rw [List.foldlM_cons, if_neg hn, List.filter_cons_of_neg (by simp [hn]), ← ih]
      rfl

/-- The place at which `walk_localhost` finds a HostID. -/
def HaConfigCommon.find (c : HaConfigCommon) (txt : CString) : Option Nat :=
  c.host.findIdx? fun info => strncmp mtcUuidSize (packedId txt) info.hostId = .eq

/-- A `HostID` is looked up in the table; the other elements leave the index alone. -/
theorem localhostElement_index {c : HaConfigCommon} {l l' : HaConfigLocal} {sub : XmlNode}
    (h : localhostElement c l sub = .ok l') :
    if sub.name = "HostID" then
      ∃ txt i, sub.txt = some txt ∧ ValidId txt ∧ c.find txt = some i ∧ l'.localhostIndex = BitVec.ofNat 32 i
    else l'.localhostIndex = l.localhostIndex := by
  unfold localhostElement at h
  split
  · rename_i hn
    rw [if_pos hn] at h
    cases htxt : sub.txt with
    | none => simp [htxt] at h
    | some txt =>
      simp only [htxt] at h
      by_cases hret : (uuidStrcpy txt).1 = mtcSuccess
      · have hv := uuidStrcpy_success.mp hret
        rw [if_neg (not_not_intro hret), uuidStrcpy_valid hv] at h
        cases hi : c.find txt with
        | none =>
          rw [HaConfigCommon.find] at hi
          simp [hi] at h
        | some i =>
          refine ⟨txt, i, rfl, hv, hi, ?_⟩
          rw [HaConfigCommon.find] at hi
          rw [hi] at h
          cases h
          rfl
      · rw [if_pos hret] at h
        cases h
  · rename_i hn
    rw [if_neg hn] at h
    dsimp only at h
    repeat' split at h
    all_goals first | (cases h; rfl) | cases h

/-- After a local part with one `HostID` the index is the place of that HostID. -/
theorem walkLocalConfig_index {c : HaConfigCommon} {l l' : HaConfigLocal} {cur : XmlNode} {me : CString}
    (h : walkLocalConfig c l cur = .ok l')
    (hme : ((localElements cur).filter fun sub => sub.name = "HostID").map (·.txt) = [some me]) :
    ValidId me ∧ ∃ i, c.find me = some i ∧ l'.localhostIndex = BitVec.ofNat 32 i := by
  rw [walkLocalConfig_eq] at h
  generalize localElements cur = subs at h hme
  induction subs generalizing l with
  | nil => cases hme
  | cons sub subs ih =>
    obtain ⟨t, hsub, hrest⟩ := foldlM_cons_ok.mp h
    have hstep := localhostElement_index hsub
    by_cases hn : sub.name = "HostID"
    · rw [if_pos hn] at hstep
      rw [List.filter_cons_of_pos (by simp [hn]), List.map_cons, List.cons_eq_cons, List.map_eq_nil_iff] at hme
      obtain ⟨txt, i, htxt, hv, hi, ht⟩ := hstep
      obtain rfl : txt = me := Option.some.inj (htxt.symm.trans hme.1)
      refine ⟨hv, i, hi, ?_⟩
      refine foldlM_inv (fun u : HaConfigLocal => u.localhostIndex = BitVec.ofNat 32 i) hrest ht fun x hx u u' hu => ?_
      have hx' : x.name ≠ "HostID" := by simpa using List.filter_eq_nil_iff.mp hme.2 x hx
      have := localhostElement_index hu
      rw [if_neg hx'] at this
      exact this.trans
    · rw [List.filter_cons_of_neg (by simp [hn])] at hme
      exact ih hrest hme

/-! ## Ranks -/

/-- The rank of a HostID among others. -/
def hostRank (ids : List MtcUuid) (id : MtcUuid) : Nat := ids.countP fun s => strncmp mtcUuidSize s id = .lt

/-! ## Documents -/

/-- A document whose sections are one `common-config` and then one `local-config`, whose hosts have one
HostID each, and which names one local HostID. -/
structure XmlDoc.Lists (doc : XmlDoc) (common loc : XmlNode) (ids : List CString) (me : CString) : Prop where
  sections : doc.root.children.filter (fun sub => sub.name = "common-config" ∨ sub.name = "local-config") = [common, loc]
  common_name : common.name = "common-config"
  loc_name : loc.name = "local-config"
  hosts : (common.named "host").map (fun host => (host.named "HostID").map (·.txt)) = ids.map fun id => [some id]
  localhost : ((localElements loc).filter fun sub => sub.name = "HostID").map (·.txt) = [some me]

section

variable {getaddrinfo : CString → Option AddrInfo} {doc : XmlDoc} {common loc : XmlNode} {ids : List CString} {me : CString}

/-- The `host` elements leave the listed HostIDs in the table. -/
theorem XmlDoc.Lists.hostIds (hl : doc.Lists common loc ids me) (hv : ∀ id ∈ ids, ValidId id) :
    (common.named "host").map hostIdOf = ids.map packedId := by
  have hh := hl.hosts
  clear hl
  generalize common.named "host" = hosts at hh
  induction ids generalizing hosts with
  | nil => rw [List.map_eq_nil_iff.mp hh]; rfl
  | cons id ids ih =>
    obtain ⟨host, hosts, rfl, hhost, hrest⟩ := List.map_eq_cons_iff.mp hh
    obtain ⟨sub, subs, hsubs, htxt, hnil⟩ := List.map_eq_cons_iff.mp hhost
    obtain rfl := List.map_eq_nil_iff.mp hnil
    have hid : hostIdOf host = packedId id := by
      rw [hostIdOf, hsubs, List.foldl_cons, List.foldl_nil, htxt]
      exact congrArg Prod.snd (uuidStrcpy_valid (hv id List.mem_cons_self))
    rw [List.map_cons, List.map_cons, hid, ih (fun x hx => hv x (List.mem_cons_of_mem _ hx)) hosts hrest]

/-- The two sections are walked in turn. -/
theorem XmlDoc.Lists.walk (hl : doc.Lists common loc ids me) (c : HaConfigData) :
    doc.root.children.foldlM (rootElement getaddrinfo) c =
      (walkCommonConfig getaddrinfo c.common common).bind fun cc =>
        (walkLocalConfig cc c.localConfig loc).map fun lc => ⟨c.version, cc, lc⟩ := by
  rw [foldlM_filter (fun sub => sub.name = "common-config" ∨ sub.name = "local-config"), hl.sections]
  · simp only [List.foldlM_cons, List.foldlM_nil, rootElement, hl.common_name, hl.loc_name, String.reduceEq, if_true,
      if_false, bind_pure]
    cases walkCommonConfig getaddrinfo c.common common <;> rfl
  · intro t x hx
    simp only [decide_eq_false_iff_not, not_or] at hx
    rw [rootElement, if_neg hx.1, if_neg hx.2]

/-- A document is accepted when its version is, its sections are walked without an error, and nothing is missing. -/
theorem interpretConfigFile_ok {c : HaConfigData} :
    interpretConfigFile getaddrinfo (.document doc) = .ok c ↔
      doc.root.name = "xhad-config" ∧ (∃ version, doc.version = some version ∧ validVersion version = true ∧
        doc.root.children.foldlM (rootElement getaddrinfo) ⟨version.chars, .initial, .initial⟩ = .ok c) ∧
      validConfig c = true := by
  rw [interpretConfigFile]
  by_cases hn : doc.root.name = "xhad-config"
  · rw [if_neg (not_not_intro hn)]
    cases hver : doc.version with
    | none => simp
    | some version =>
      by_cases hv : validVersion version = true
      · cases hf : doc.root.children.foldlM (rootElement getaddrinfo) ⟨version.chars, .initial, .initial⟩ with
        | error ret => simp [hv, hf]
        | ok d =>
          by_cases hd : validConfig d = true
          · simp only [hn, hv, hf, hd, Bool.not_true, Bool.false_eq_true, if_false, if_true, Except.ok.injEq,
              Option.some.injEq, exists_eq_left', true_and]
            exact ⟨fun h => ⟨h, h ▸ hd⟩, And.left⟩
          · simp only [hn, hv, hf, hd, Bool.not_true, Bool.false_eq_true, if_false, Except.ok.injEq,
              Option.some.injEq, exists_eq_left', true_and, reduceCtorEq, false_iff, not_and]
            exact fun h => h ▸ hd
      · simp [hv]
  · simp [hn]

/-- An accepted document has had its two sections walked. -/
theorem XmlDoc.Lists.walked (hl : doc.Lists common loc ids me) {c : HaConfigData}
    (hc : interpretConfigFile getaddrinfo (.document doc) = .ok c) :
    walkCommonConfig getaddrinfo .initial common = .ok c.common ∧
      walkLocalConfig c.common .initial loc = .ok c.localConfig := by
  obtain ⟨-, ⟨version, -, -, hf⟩, -⟩ := interpretConfigFile_ok.mp hc
  rw [hl.walk] at hf
  cases hcc : walkCommonConfig getaddrinfo .initial common with
  | error ret => simp [hcc, Except.bind] at hf
  | ok cc =>
    cases hlc : walkLocalConfig cc .initial loc with
    | error ret => simp [hcc, hlc, Except.bind, Except.map] at hf
    | ok lc =>
      simp only [hcc, hlc, Except.bind, Except.map, Except.ok.injEq] at hf
      subst hf
      exact ⟨rfl, hlc⟩

/-- What an accepted document makes of its HostIDs: the table holds them, strictly sorted, and the local index
is the place of the local one. -/
theorem XmlDoc.Lists.table (hl : doc.Lists common loc ids me) (hv : ∀ id ∈ ids, ValidId id)
    (hnodup : (ids.map packedId).Nodup) {c : HaConfigData}
    (hc : interpretConfigFile getaddrinfo (.document doc) = .ok c) :
    c.common.hostIds.Perm (ids.map packedId) ∧
      c.common.hostIds.Pairwise (fun s t => strncmp mtcUuidSize s t = .lt) ∧
      c.common.hostIds[c.localConfig.localhostIndex.toNat]? = some (packedId me) := by
  obtain ⟨hcc, hlc⟩ := hl.walked hc
  have hperm : c.common.hostIds.Perm (ids.map packedId) := by
    simpa [hl.hostIds hv, HaConfigCommon.initial, HaConfigCommon.hostIds] using walkCommonConfig_perm hcc
  -- every identifier of the table is a whole, valid one
  have hid : ∀ s ∈ c.common.hostIds, s.length = mtcUuidSize ∧ '\x00' ∉ s := by
    intro s hs
    obtain ⟨id, hmem, rfl⟩ := List.mem_map.mp (hperm.mem_iff.mp hs)
    exact ⟨hv id hmem, nul_notMem_packedId id⟩
  refine ⟨hperm, ?_, ?_⟩
  · have hne : c.common.hostIds.Pairwise (· ≠ ·) := hperm.nodup_iff.mpr hnodup
    refine ((walkCommonConfig_sorted hcc).and hne).imp_of_mem fun {s t} hs ht h => strncmp_lt h.1 ?_
    rw [ne_eq, strncmp_eq (hid s hs).1 (hid t ht).1 (hid s hs).2]
    exact h.2
  · obtain ⟨hme, i, hi, hidx⟩ := walkLocalConfig_index hlc hl.localhost
    obtain ⟨hlt, heq, -⟩ := List.findIdx?_eq_some_iff_getElem.mp hi
    have hi64 : i < maxHostNum := lt_of_lt_of_le hlt c.common.hostnum_le
    have hnat : c.localConfig.localhostIndex.toNat = i := by
      rw [hidx, BitVec.toNat_ofNat, Nat.mod_eq_of_lt]
      exact lt_trans hi64 (by decide)
    have hmem : c.common.host[i].hostId ∈ c.common.hostIds := List.mem_map_of_mem (List.getElem_mem hlt)
    have hsame : packedId me = c.common.host[i].hostId :=
      (strncmp_eq hme (hid _ hmem).1 (nul_notMem_packedId me)).mp (of_decide_eq_true heq)
    rw [hnat, HaConfigCommon.hostIds, List.getElem?_map, List.getElem?_eq_getElem hlt, hsame]
    rfl

/-! ## Which documents are accepted -/

/-- All that a document needs besides its HostIDs is there and readable. -/
structure XmlDoc.Complete (getaddrinfo : CString → Option AddrInfo) (doc : XmlDoc) (common loc : XmlNode) : Prop where
  root_name : doc.root.name = "xhad-config"
  version : ∃ version, doc.version = some version ∧ validVersion version = true
  generation : ∀ sub ∈ common.named "GenerationUUID", ∃ txt, sub.txt = some txt ∧ ValidId txt
  generation_set : common.named "GenerationUUID" ≠ []
  port : ∀ sub ∈ common.named "UDPport", ∃ txt, sub.txt = some txt ∧ (strtol txt.chars).2 = [] ∧
    BitVec.ofInt 32 (strtol txt.chars).1 ≠ 0
  port_set : common.named "UDPport" ≠ []
  address : ∀ host ∈ common.named "host", ∀ sub ∈ host.named "IPaddress", ∃ txt addr, sub.txt = some txt ∧
    getaddrinfo txt = some addr ∧ addr ≠ .other
  parameter : ∀ params ∈ common.named "parameters", ∀ sub ∈ params.children, ∀ p : Parameter, sub.name = p.name →
    ∃ txt, sub.txt = some txt ∧ (strtol txt.chars).2 = []
  text : ∀ sub ∈ localElements loc,
    sub.name ∈ ["HeartbeatInterface", "HeartbeatPhysicalInterface", "StateFile", "WatchdogMode"] →
    ∃ txt, sub.txt = some txt ∧ txt.chars ≠ []
  interface_set : ∃ sub ∈ localElements loc, sub.name = "HeartbeatInterface"
  statefile_set : ∃ sub ∈ localElements loc, sub.name = "StateFile"

/-- A `host` element with readable children fits into a table that is not full. -/
theorem walkHostConfig_total {c : HaConfigCommon} {cur : XmlNode} (hlt : c.hostnum < maxHostNum)
    (hid : ∀ sub ∈ cur.named "HostID", ∃ txt, sub.txt = some txt)
    (haddr : ∀ sub ∈ cur.named "IPaddress", ∃ txt addr, sub.txt = some txt ∧ getaddrinfo txt = some addr ∧ addr ≠ .other) :
    ∃ c', walkHostConfig getaddrinfo c cur = .ok c' ∧ c'.hostnum = c.hostnum + 1 ∧
      c'.generationUuid = c.generationUuid ∧ c'.udpPort = c.udpPort := by
  obtain ⟨info, hf, -⟩ := foldlM_total (f := hostElement getaddrinfo) (s := .cleared)
    (fun rest _ => ∀ sub ∈ rest, sub ∈ cur.children) (fun _ h => h) fun sub rest info h => by
      have hrest : ∀ x ∈ rest, x ∈ cur.children := fun x hx => h x (List.mem_cons_of_mem _ hx)
      have hsub := h sub List.mem_cons_self
      unfold hostElement
      by_cases h1 : sub.name = "HostID"
      · obtain ⟨txt, htxt⟩ := hid sub (mem_named.mpr ⟨hsub, h1⟩)
        rw [if_pos h1, htxt]
        exact ⟨_, if_neg (uuidStrcpy_nonneg txt), hrest⟩
      · rw [if_neg h1]
        by_cases h2 : sub.name = "IPaddress"
        · obtain ⟨txt, addr, htxt, hfound, hother⟩ := haddr sub (mem_named.mpr ⟨hsub, h2⟩)
          simp only [if_pos h2, htxt, hfound]
          cases addr with
          | inet addr => exact ⟨_, rfl, hrest⟩
          | inet6 addr => exact ⟨_, rfl, hrest⟩
          | other => exact absurd rfl hother
        · exact ⟨info, if_neg h2, hrest⟩
  rw [walkHostConfig, dif_neg (Nat.not_le_of_lt hlt), hf]
  exact ⟨_, rfl, List.length_append, rfl, rfl⟩

/-- Readable parameters are all taken. -/
theorem walkParametersConfig_total {c : HaConfigCommon} {cur : XmlNode}
    (hparam : ∀ sub ∈ cur.children, ∀ p : Parameter, sub.name = p.name →
      ∃ txt, sub.txt = some txt ∧ (strtol txt.chars).2 = []) :
    ∃ c', walkParametersConfig c cur = .ok c' ∧ c'.hostnum = c.hostnum ∧
      c'.generationUuid = c.generationUuid ∧ c'.udpPort = c.udpPort := by
  obtain ⟨c', hc', -, h⟩ := foldlM_total (f := parameterElement) (s := c)
    (fun rest d => (∀ sub ∈ rest, sub ∈ cur.children) ∧ d.hostnum = c.hostnum ∧ d.generationUuid = c.generationUuid ∧
      d.udpPort = c.udpPort) ⟨fun _ h => h, rfl, rfl, rfl⟩ fun sub rest d ⟨h, hd⟩ => by
      have hrest : ∀ x ∈ rest, x ∈ cur.children := fun x hx => h x (List.mem_cons_of_mem _ hx)
      unfold parameterElement
      cases hp : Parameter.tbl.find? fun p => sub.name = p.name with
      | none => exact ⟨d, rfl, hrest, hd⟩
      | some p =>
        have hname : sub.name = p.name := by simpa using List.find?_some hp
        obtain ⟨txt, htxt, hend⟩ := hparam sub (h sub List.mem_cons_self) p hname
        simp only [htxt]
        exact ⟨_, if_neg (not_not_intro hend), hrest, hd⟩
  exact ⟨c', hc', h⟩

/-- A child of a complete `common-config` element is taken while the table has room for it. -/
theorem XmlDoc.Complete.commonElement {doc : XmlDoc} (hd : doc.Complete getaddrinfo common loc) {c : HaConfigCommon}
    {sub : XmlNode} (hsub : sub ∈ common.children) (hlt : sub.name = "host" → c.hostnum < maxHostNum)
    (hid : ∀ host ∈ common.named "host", ∀ sub ∈ host.named "HostID", ∃ txt, sub.txt = some txt) :
    ∃ c', commonElement getaddrinfo c sub = .ok c' ∧
      c'.hostnum = c.hostnum + (if sub.name = "host" then 1 else 0) ∧
      (sub.name = "GenerationUUID" ∨ c.generationUuid.headD '\x00' ≠ '\x00' → c'.generationUuid.headD '\x00' ≠ '\x00') ∧
      (sub.name = "UDPport" ∨ c.udpPort ≠ 0 → c'.udpPort ≠ 0) := by
  unfold Xha.commonElement
  by_cases h1 : sub.name = "GenerationUUID"
  · obtain ⟨txt, htxt, hv⟩ := hd.generation sub (mem_named.mpr ⟨hsub, h1⟩)
    refine ⟨{ c with generationUuid := packedId txt }, ?_, by simp [h1, HaConfigCommon.hostnum], fun _ => hv.head_ne, ?_⟩
    · simp [h1, htxt, uuidStrcpy_valid hv]
    · simp [h1]
  by_cases h2 : sub.name = "UDPport"
  · obtain ⟨txt, htxt, hend, hport⟩ := hd.port sub (mem_named.mpr ⟨hsub, h2⟩)
    refine ⟨{ c with udpPort := BitVec.ofInt 32 (strtol txt.chars).1 }, ?_, by simp [h2, HaConfigCommon.hostnum], ?_,
      fun _ => hport⟩
    · simpa [h2, htxt, hend] using hport
    · simp [h2]
  by_cases h3 : sub.name = "host"
  · have hmem := mem_named.mpr ⟨hsub, h3⟩
    obtain ⟨c', hc', hnum, hgen, hport⟩ := walkHostConfig_total (c := c) (hlt h3) (hid sub hmem) (hd.address sub hmem)
    exact ⟨c', by simp [h3, hc'], by rw [hnum, if_pos h3], by simp [h1, hgen], by simp [h2, hport]⟩
  by_cases h4 : sub.name = "parameters"
  · obtain ⟨c', hc', hnum, hgen, hport⟩ := walkParametersConfig_total (c := c) (hd.parameter sub (mem_named.mpr ⟨hsub, h4⟩))
    exact ⟨c', by simp [h4, hc'], by simp [h3, hnum], by simp [h1, hgen], by simp [h2, hport]⟩
  · exact ⟨c, by simp [h1, h2, h3, h4], by simp [h3], by simp [h1], by simp [h2]⟩

/-- A child of a `localhost` element is taken when its HostID is in the table. -/
theorem XmlDoc.Complete.localhostElement {doc : XmlDoc} (hd : doc.Complete getaddrinfo common loc) {c : HaConfigCommon}
    {l : HaConfigLocal} {sub : XmlNode} (hsub : sub ∈ localElements loc)
    (hid : sub.name = "HostID" → ∃ txt i, sub.txt = some txt ∧ ValidId txt ∧ c.find txt = some i) :
    ∃ l', localhostElement c l sub = .ok l' ∧
      (sub.name = "HeartbeatInterface" ∨ l.heartbeatInterface.headD '\x00' ≠ '\x00' →
        l'.heartbeatInterface.headD '\x00' ≠ '\x00') ∧
      (sub.name = "StateFile" ∨ l.statefilePath.headD '\x00' ≠ '\x00' → l'.statefilePath.headD '\x00' ≠ '\x00') := by
  unfold Xha.localhostElement
  by_cases h1 : sub.name = "HostID"
  · obtain ⟨txt, i, htxt, hv, hi⟩ := hid h1
    refine ⟨{ l with localhostIndex := BitVec.ofNat 32 i }, ?_, by simp [h1], by simp [h1]⟩
    rw [HaConfigCommon.find] at hi
    simp [h1, htxt, uuidStrcpy_valid hv, hi]
  rw [if_neg h1]
  by_cases h2 : sub.name = "HeartbeatInterface"
  · obtain ⟨txt, htxt, hne⟩ := hd.text sub hsub (by simp [h2])
    exact ⟨{ l with heartbeatInterface := copyText heartbeatInterfaceLen txt }, by simp [h2, htxt],
      fun _ => copyText_head_ne (by decide) hne, by simp [h2]⟩
  by_cases h3 : sub.name = "HeartbeatPhysicalInterface"
  · obtain ⟨txt, htxt, -⟩ := hd.text sub hsub (by simp [h3])
    exact ⟨{ l with heartbeatPhysicalInterface := copyText heartbeatInterfaceLen txt }, by simp [h3, htxt],
      by simp [h3], by simp [h3]⟩
  by_cases h4 : sub.name = "StateFile"
  · obtain ⟨txt, htxt, hne⟩ := hd.text sub hsub (by simp [h4])
    exact ⟨{ l with statefilePath := copyText statefilePathLen txt }, by simp [h4, htxt], by simp [h4],
      fun _ => copyText_head_ne (by decide) hne⟩
  by_cases h5 : sub.name = "WatchdogMode"
  · obtain ⟨txt, htxt, -⟩ := hd.text sub hsub (by simp [h5])
    exact ⟨{ l with watchdogMode := copyText watchdogModeLen txt }, by simp [h5, htxt], by simp [h5], by simp [h5]⟩
  · exact ⟨l, by simp [h2, h3, h4, h5], by simp [h2], by simp [h4]⟩

theorem HaConfigCommon.find_of_mem {c : HaConfigCommon} {txt : CString} (h : packedId txt ∈ c.hostIds) :
    ∃ i, c.find txt = some i := by
  cases hf : c.find txt with
  | some i => exact ⟨i, rfl⟩
  | none =>
    obtain ⟨info, hinfo, hid⟩ := List.mem_map.mp h
    have := List.findIdx?_eq_none_iff.mp hf info hinfo
    rw [hid, strncmp_self] at this
    cases this

/-- What is set, or still to be set by an element to come, is so after a turn. -/
theorem pending_or {p : XmlNode → Prop} {q q' : Prop} {sub : XmlNode} {rest : List XmlNode}
    (h : (∃ x ∈ sub :: rest, p x) ∨ q) (hs : p sub ∨ q → q') : (∃ x ∈ rest, p x) ∨ q' := by
  rcases h with ⟨x, hx, hp⟩ | hq
  · rcases List.mem_cons.mp hx with rfl | hx
    · exact Or.inr (hs (Or.inl hp))
    · exact Or.inl ⟨x, hx, hp⟩
  · exact Or.inr (hs (Or.inr hq))

/-- A complete `common-config` element that lists at most 64 hosts is taken. -/
theorem XmlDoc.Lists.common_total (hl : doc.Lists common loc ids me) (hd : doc.Complete getaddrinfo common loc)
    (hlen : ids.length ≤ maxHostNum) :
    ∃ c, walkCommonConfig getaddrinfo .initial common = .ok c ∧ c.generationUuid.headD '\x00' ≠ '\x00' ∧ c.udpPort ≠ 0 := by
  have hid : ∀ host ∈ common.named "host", ∀ sub ∈ host.named "HostID", ∃ txt, sub.txt = some txt := by
    intro host hhost sub hsub
    have hmap := List.mem_map_of_mem (f := fun host => (host.named "HostID").map (·.txt)) hhost
    rw [hl.hosts] at hmap
    obtain ⟨id, -, hid⟩ := List.mem_map.mp hmap
    have htxt := List.mem_map_of_mem (f := (·.txt)) hsub
    rw [← hid] at htxt
    exact ⟨id, List.mem_singleton.mp htxt⟩
  have hnum : (common.named "host").length = ids.length := by simpa using congrArg List.length hl.hosts
  obtain ⟨gen, hgen⟩ := List.exists_mem_of_ne_nil _ hd.generation_set
  obtain ⟨port, hport⟩ := List.exists_mem_of_ne_nil _ hd.port_set
  rw [mem_named] at hgen hport
  obtain ⟨c, hc, -, -, hcgen, hcport⟩ := foldlM_total (f := Xha.commonElement getaddrinfo) (s := .initial)
    (fun rest c => (∀ sub ∈ rest, sub ∈ common.children) ∧
      c.hostnum + (rest.filter fun sub => sub.name = "host").length ≤ maxHostNum ∧
      ((∃ sub ∈ rest, sub.name = "GenerationUUID") ∨ c.generationUuid.headD '\x00' ≠ '\x00') ∧
      ((∃ sub ∈ rest, sub.name = "UDPport") ∨ c.udpPort ≠ 0))
    ⟨fun _ h => h, by rw [← hnum] at hlen; exact (Nat.zero_add _).trans_le hlen, Or.inl ⟨gen, hgen⟩,
      Or.inl ⟨port, hport⟩⟩ fun sub rest c ⟨hmem, hroom, hg, hp⟩ => by
      rw [List.filter_cons] at hroom
      have hlt : sub.name = "host" → c.hostnum < maxHostNum := fun h => by
        rw [if_pos (by simp [h]), List.length_cons] at hroom
        omega
      obtain ⟨c', hc', hnum', hgen', hport'⟩ := hd.commonElement (hmem sub List.mem_cons_self) hlt hid
      refine ⟨c', hc', fun x hx => hmem x (List.mem_cons_of_mem _ hx), ?_, pending_or hg hgen', pending_or hp hport'⟩
      rw [hnum']
      by_cases hn : sub.name = "host"
      · rw [if_pos (by simp [hn]), List.length_cons] at hroom
        rw [if_pos hn]
        omega
      · rw [if_neg (by simp [hn])] at hroom
        rwa [if_neg hn]
  rw [walkCommonConfig, hc]
  refine ⟨_, rfl, hcgen.resolve_left ?_, hcport.resolve_left ?_⟩ <;> simp

/-- A complete `local-config` element that names a host of the table is taken. -/
theorem XmlDoc.Lists.local_total (hl : doc.Lists common loc ids me) (hd : doc.Complete getaddrinfo common loc)
    {c : HaConfigCommon} (hv : ValidId me) (hme : packedId me ∈ c.hostIds) :
    ∃ l, walkLocalConfig c .initial loc = .ok l ∧ l.heartbeatInterface.headD '\x00' ≠ '\x00' ∧
      l.statefilePath.headD '\x00' ≠ '\x00' := by
  have hid : ∀ sub ∈ localElements loc, sub.name = "HostID" →
      ∃ txt i, sub.txt = some txt ∧ ValidId txt ∧ c.find txt = some i := by
    intro sub hsub hn
    have htxt : sub.txt ∈ ((localElements loc).filter fun sub => sub.name = "HostID").map (·.txt) :=
      List.mem_map_of_mem (List.mem_filter.mpr ⟨hsub, by simp [hn]⟩)
    rw [hl.localhost, List.mem_singleton] at htxt
    obtain ⟨i, hi⟩ := HaConfigCommon.find_of_mem hme
    exact ⟨me, i, htxt, hv, hi⟩
  obtain ⟨iface, hiface⟩ := hd.interface_set
  obtain ⟨sf, hsf⟩ := hd.statefile_set
  obtain ⟨l, hl', -, hli, hls⟩ := foldlM_total (f := Xha.localhostElement c) (s := .initial)
    (fun rest l => (∀ sub ∈ rest, sub ∈ localElements loc) ∧
      ((∃ sub ∈ rest, sub.name = "HeartbeatInterface") ∨ l.heartbeatInterface.headD '\x00' ≠ '\x00') ∧
      ((∃ sub ∈ rest, sub.name = "StateFile") ∨ l.statefilePath.headD '\x00' ≠ '\x00'))
    ⟨fun _ h => h, Or.inl ⟨iface, hiface⟩, Or.inl ⟨sf, hsf⟩⟩ fun sub rest l ⟨hmem, hi, hs⟩ => by
      have hsub := hmem sub List.mem_cons_self
      obtain ⟨l', hl', hi', hs'⟩ := hd.localhostElement (l := l) hsub (hid sub hsub)
      exact ⟨l', hl', fun x hx => hmem x (List.mem_cons_of_mem _ hx), pending_or hi hi', pending_or hs hs'⟩
  rw [walkLocalConfig_eq]
  refine ⟨l, hl', hli.resolve_left ?_, hls.resolve_left ?_⟩ <;> simp

/-- A complete document whose local HostID is valid and in its table is accepted. -/
theorem XmlDoc.Lists.accepted_of_mem (hl : doc.Lists common loc ids me) (hd : doc.Complete getaddrinfo common loc)
    (hlen : ids.length ≤ maxHostNum) (hvme : ValidId me) (hme : packedId me ∈ (common.named "host").map hostIdOf) :
    ∃ c, interpretConfigFile getaddrinfo (.document doc) = .ok c := by
  obtain ⟨cc, hcc, hgen, hport⟩ := hl.common_total hd hlen
  have hmem : packedId me ∈ cc.hostIds := by
    rw [(walkCommonConfig_perm hcc).mem_iff]
    exact List.mem_append_right _ hme
  obtain ⟨lc, hlc, hiface, hsf⟩ := hl.local_total hd hvme hmem
  obtain ⟨-, i, hi, hidx⟩ := walkLocalConfig_index hlc hl.localhost
  obtain ⟨version, hver, hvalid⟩ := hd.version
  refine ⟨⟨version.chars, cc, lc⟩, interpretConfigFile_ok.mpr ⟨hd.root_name, ⟨version, hver, hvalid, ?_⟩, ?_⟩⟩
  · rw [hl.walk, hcc]
    simp only [Except.bind]
    rw [hlc]
    rfl
  · obtain ⟨hlt, -⟩ := List.findIdx?_eq_some_iff_getElem.mp hi
    have hi64 : lc.localhostIndex.toNat < maxHostNum := by
      have h64 := lt_of_lt_of_le hlt cc.hostnum_le
      rw [hidx, BitVec.toNat_ofNat, Nat.mod_eq_of_lt (lt_trans h64 (by decide))]
      exact h64
    have hpos : cc.hostnum ≠ 0 := Nat.ne_of_gt (Nat.zero_lt_of_lt hlt)
    simp only [validConfig, Bool.and_eq_true, decide_eq_true_iff]
    exact ⟨⟨⟨⟨⟨hgen, hport⟩, hpos⟩, hiface⟩, hsf⟩, hi64⟩

/-- A complete document with valid HostIDs is accepted. -/
theorem XmlDoc.Lists.accepted (hl : doc.Lists common loc ids me) (hd : doc.Complete getaddrinfo common loc)
    (hv : ∀ id ∈ ids, ValidId id) (hlen : ids.length ≤ maxHostNum) (hme : packedId me ∈ ids.map packedId) :
    ∃ c, interpretConfigFile getaddrinfo (.document doc) = .ok c := by
  have hvme : ValidId me := by
    obtain ⟨id, hid, heq⟩ := List.mem_map.mp hme
    exact (congrArg List.length heq).symm.trans (hv id hid)
  exact hl.accepted_of_mem hd hlen hvme (by rw [hl.hostIds hv]; exact hme)

end

/-! ## Two hosts -/

/-- The place of a HostID depends on the identifiers alone. -/
theorem HaConfigCommon.find_congr {c c' : HaConfigCommon} (h : c.hostIds = c'.hostIds) (txt : CString) :
    c.find txt = c'.find txt := by
  have hfind (d : HaConfigCommon) :
      d.find txt = d.hostIds.findIdx? fun id => strncmp mtcUuidSize (packedId txt) id = .eq := by
    rw [hostIds, List.findIdx?_map]
    rfl
  rw [hfind, hfind, h]

theorem strncmp_asymm {s t : MtcUuid} (h : strncmp mtcUuidSize s t = .lt) : ¬strncmp mtcUuidSize t s = .lt := by
  intro h'
  have := strncmp_antisymm (n := mtcUuidSize) (s := s) (t := t) (by rw [h]; decide) (by rw [h']; decide)
  rw [h] at this
  cases this

/-- Every host derives the same numbering: two documents with the same HostIDs, in any order, give the same
sorted table, in which every HostID has one place, and each local index is the rank of the local HostID. Such
documents are accepted when the rest of them is complete. -/
theorem host_numbering {getaddrinfo getaddrinfo' : CString → Option AddrInfo} {doc doc' : XmlDoc}
    {common common' loc loc' : XmlNode} {ids ids' : List CString} {me me' : CString}
    (hl : doc.Lists common loc ids me) (hl' : doc'.Lists common' loc' ids' me') (hvalid : ∀ id ∈ ids, ValidId id)
    (hdistinct : (ids.map packedId).Nodup) (hsame : (ids.map packedId).Perm (ids'.map packedId)) :
    (∀ c c', interpretConfigFile getaddrinfo (.document doc) = .ok c →
      interpretConfigFile getaddrinfo' (.document doc') = .ok c' →
      c.common.hostIds = c'.common.hostIds ∧
        c.common.hostIds.Pairwise (fun s t => strncmp mtcUuidSize s t = .lt) ∧
        (∀ id, c.common.find id = c'.common.find id) ∧
        (c.common.hostIds[c.localConfig.localhostIndex.toNat]? = some (packedId me) ∧
          c.localConfig.localhostIndex.toNat = hostRank (ids.map packedId) (packedId me)) ∧
        (c'.common.hostIds[c'.localConfig.localhostIndex.toNat]? = some (packedId me') ∧
          c'.localConfig.localhostIndex.toNat = hostRank (ids.map packedId) (packedId me'))) ∧
      (ids.length ≤ maxHostNum → packedId me ∈ ids.map packedId → packedId me' ∈ ids.map packedId →
        (doc.Complete getaddrinfo common loc → ∃ c, interpretConfigFile getaddrinfo (.document doc) = .ok c) ∧
        (doc'.Complete getaddrinfo' common' loc' → ∃ c', interpretConfigFile getaddrinfo' (.document doc') = .ok c')) := by
  have hvalid' : ∀ id ∈ ids', ValidId id := by
    intro id hid
    obtain ⟨id0, hid0, heq⟩ := List.mem_map.mp (hsame.mem_iff.mpr (List.mem_map_of_mem hid))
    exact (congrArg List.length heq).symm.trans (hvalid id0 hid0)
  have hlen : ids.length = ids'.length := by simpa using hsame.length_eq
  constructor
  · intro c c' hc hc'
    obtain ⟨hperm, hsorted, hplace⟩ := hl.table hvalid hdistinct hc
    obtain ⟨hperm', hsorted', hplace'⟩ := hl'.table hvalid' (hsame.nodup_iff.mp hdistinct) hc'
    have heq : c.common.hostIds = c'.common.hostIds :=
      List.Perm.eq_of_pairwise (fun s t _ _ h h' => absurd h' (strncmp_asymm h)) hsorted hsorted'
        ((hperm.trans hsame).trans hperm'.symm)
    have hrank := SortedRank.countP_of_pairwise (fun _ _ => strncmp_asymm) hsorted hplace
    have hrank' := SortedRank.countP_of_pairwise (fun _ _ => strncmp_asymm) hsorted' hplace'
    refine ⟨heq, hsorted, HaConfigCommon.find_congr heq, ⟨hplace, ?_⟩, hplace', ?_⟩
    · rw [← hrank, hostRank, hperm.countP_eq]
    · rw [← hrank', hostRank, (hperm'.trans hsame.symm).countP_eq]
  · intro hmax hme hme'
    exact ⟨fun hd => hl.accepted hd hvalid hmax hme,
      fun hd => hl'.accepted hd hvalid' (hlen ▸ hmax) (hsame.mem_iff.mp hme')⟩

/-! ### A pool of two hosts -/

/-- An element that only has a text. -/
def XmlNode.leaf (name : String) (txt : CString) : XmlNode := ⟨name, some txt, []⟩

/-- The element of a host: its HostID and its address. -/
def poolHost (host : CString × CString) : XmlNode :=
  ⟨"host", none, [.leaf "HostID" host.1, .leaf "IPaddress" host.2]⟩

/-- The elements of the common section besides the hosts. -/
def poolSettings (params : List XmlNode) : List XmlNode :=
  [.leaf "GenerationUUID" ⟨"5b1d0a6e-94c2-4f0f-8a8e-0e9f6c1d2b3a".toList, by decide⟩,
    .leaf "UDPport" ⟨"694".toList, by decide⟩, ⟨"parameters", none, params⟩]

/-- The common section of a pool. -/
def poolCommon (hosts : List (CString × CString)) (params : List XmlNode) : XmlNode :=
  ⟨"common-config", none, poolSettings params ++ hosts.map poolHost⟩

/-- The local section of a host. -/
def poolLocal (me : CString) : XmlNode :=
  ⟨"local-config", none, [⟨"localhost", none,
    [.leaf "HostID" me, .leaf "HeartbeatInterface" ⟨"xenbr0".toList, by decide⟩,
      .leaf "StateFile" ⟨"/dev/xvda".toList, by decide⟩]⟩]⟩

/-- The document of a host of a pool. -/
def poolDoc (hosts : List (CString × CString)) (params : List XmlNode) (me : CString) : XmlDoc where
  root := ⟨"xhad-config", none, [poolCommon hosts params, poolLocal me]⟩
  version := some ⟨validVersionString, by decide⟩

theorem poolCommon_named (hosts : List (CString × CString)) (params : List XmlNode) (name : String) :
    (poolCommon hosts params).named name =
      (poolSettings params).filter (fun sub => sub.name = name) ++ if name = "host" then hosts.map poolHost else [] := by
  rw [XmlNode.named, poolCommon, List.filter_append]
  congr 1
  split
  · rename_i hn
    rw [List.filter_eq_self]
    intro x hx
    obtain ⟨host, -, rfl⟩ := List.mem_map.mp hx
    simp [poolHost, hn]
  · rename_i hn
    rw [List.filter_eq_nil_iff]
    intro x hx
    obtain ⟨host, -, rfl⟩ := List.mem_map.mp hx
    exact fun h => hn (of_decide_eq_true h).symm

theorem poolDoc_lists (hosts : List (CString × CString)) (params : List XmlNode) (me : CString) :
    (poolDoc hosts params me).Lists (poolCommon hosts params) (poolLocal me) (hosts.map Prod.fst) me where
  sections := by simp [poolDoc, poolCommon, poolLocal]
  common_name := rfl
  loc_name := rfl
  hosts := by
    simp [poolCommon_named, poolSettings, XmlNode.leaf]
    simp [poolHost, XmlNode.named, XmlNode.leaf]
  localhost := by simp [poolLocal, localElements, XmlNode.named, XmlNode.leaf]

theorem poolDoc_complete {getaddrinfo : CString → Option AddrInfo} {hosts : List (CString × CString)}
    {params : List XmlNode} (me : CString)
    (haddr : ∀ host ∈ hosts, ∃ addr, getaddrinfo host.2 = some addr ∧ addr ≠ .other)
    (hparams : ∀ sub ∈ params, ∃ txt, sub.txt = some txt ∧ (strtol txt.chars).2 = []) :
    (poolDoc hosts params me).Complete getaddrinfo (poolCommon hosts params) (poolLocal me) where
  root_name := rfl
  version := ⟨_, rfl, by decide⟩
  generation := by
    simp [poolCommon_named, poolSettings, XmlNode.leaf]
    decide
  generation_set := by simp [poolCommon_named, poolSettings, XmlNode.leaf]
  port := by
    simp [poolCommon_named, poolSettings, XmlNode.leaf]
    decide
  port_set := by simp [poolCommon_named, poolSettings, XmlNode.leaf]
  address := by
    intro cur hcur sub hsub
    obtain ⟨a, b, hmem, rfl⟩ : ∃ a b, (a, b) ∈ hosts ∧ poolHost (a, b) = cur := by
      simpa [poolCommon_named, poolSettings, XmlNode.leaf] using hcur
    obtain ⟨addr, hfound, hother⟩ := haddr _ hmem
    obtain rfl : sub = .leaf "IPaddress" b := by simpa [poolHost, XmlNode.named, XmlNode.leaf] using hsub
    exact ⟨b, addr, rfl, hfound, hother⟩
  parameter := by
    intro cur hcur sub hsub p _
    simp [poolCommon_named, poolSettings, XmlNode.leaf] at hcur
    exact hparams sub (by simpa [hcur] using hsub)
  text := by
    simp [poolLocal, localElements, XmlNode.named, XmlNode.leaf]
  interface_set := by simp [poolLocal, localElements, XmlNode.named, XmlNode.leaf]
  statefile_set := by simp [poolLocal, localElements, XmlNode.named, XmlNode.leaf]

/-- Two HostIDs, and the addresses of their hosts. -/
def firstHost : CString × CString :=
  (⟨"0f3ac6c2-2a5e-4d6b-9c1e-7b8d9e0f1a2b".toList, by decide⟩, ⟨"10.0.0.1".toList, by decide⟩)

def secondHost : CString × CString :=
  (⟨"9b2c4d6e-8f0a-41b3-85c7-d9e1f3a5b7c9".toList, by decide⟩, ⟨"10.0.0.2".toList, by decide⟩)

/-- The lookup of the two addresses. -/
def poolAddress (txt : CString) : Option AddrInfo :=
  if txt.chars = "10.0.0.1".toList then some (.inet 0x0a000001)
  else if txt.chars = "10.0.0.2".toList then some (.inet 0x0a000002)
  else none

theorem poolAddress_some (host : CString × CString) (h : host = firstHost ∨ host = secondHost) :
    ∃ addr, poolAddress host.2 = some addr ∧ addr ≠ .other := by
  rcases h with rfl | rfl
  · exact ⟨.inet 0x0a000001, rfl, nofun⟩
  · exact ⟨.inet 0x0a000002, rfl, nofun⟩

/-- Both hosts of a pool accept their documents, which list them in different orders, and have indices 0 and 1. -/
theorem host_numbering_pair :
    ∃ c c', interpretConfigFile poolAddress (.document (poolDoc [secondHost, firstHost] [] firstHost.1)) = .ok c ∧
      interpretConfigFile poolAddress (.document (poolDoc [firstHost, secondHost] [] secondHost.1)) = .ok c' ∧
      c.common.hostIds = c'.common.hostIds ∧ c.localConfig.localhostIndex.toNat = 0 ∧
      c'.localConfig.localhostIndex.toNat = 1 := by
  obtain ⟨hsame, htotal⟩ := @host_numbering poolAddress poolAddress _ _ _ _ _ _ _ _ _ _
    (poolDoc_lists [secondHost, firstHost] [] firstHost.1) (poolDoc_lists [firstHost, secondHost] [] secondHost.1)
    (by decide) (by decide) (by decide)
  obtain ⟨h1, h2⟩ := htotal (by decide) (by decide) (by decide)
  have haddr : ∀ host ∈ [firstHost, secondHost], ∃ addr, poolAddress host.2 = some addr ∧ addr ≠ .other :=
    fun host hhost => poolAddress_some host (by simpa using hhost)
  obtain ⟨c, hc⟩ := h1 (poolDoc_complete _ (fun host hhost => haddr host (by simpa [or_comm] using hhost)) nofun)
  obtain ⟨c', hc'⟩ := h2 (poolDoc_complete _ haddr nofun)
  obtain ⟨heq, -, -, ⟨-, hi⟩, -, hi'⟩ := hsame c c' hc hc'
  exact ⟨c, c', hc, hc', heq, hi.trans (by decide), hi'.trans (by decide)⟩

end Xha
