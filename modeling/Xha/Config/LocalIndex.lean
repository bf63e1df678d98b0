/-
The local index: `walk_localhost` looks the local HostID up in the table as it is then, and a `common-config`
element that comes later adds hosts and sorts the table again. The index still names the local host exactly
when none of these hosts sorts before it (`local_index_names_iff`): its place is the number of hosts before it.
-/
import Xha.Config.Accepted
import Xha.Lib.SortedRank

namespace Xha

open CString Loop SortedRank

/-! ## The table as a sorted list -/

/-- What `strncmp` compares of an identifier. -/
def idKey (id : MtcUuid) : List Nat := (cut mtcUuidSize id).map Char.toNat

theorem sorted_hostIds {ids : List MtcUuid} :
    Sorted idKey ids ↔ ids.Pairwise fun s t => strncmp mtcUuidSize s t ≠ .gt := by
  have hkey : (fun s t : MtcUuid => idKey s ≤ idKey t) = fun s t => strncmp mtcUuidSize s t ≠ .gt := by
    funext s t
    exact propext (cmpBy_ne_gt toNat_eq_zero _ _ _).symm
  rw [Sorted, hkey]

/-- An identifier without a zero byte has its key to itself. -/
theorem idKey_eq {id id' : MtcUuid} (hid : WholeId id) (hlen : id'.length = mtcUuidSize) :
    idKey id' = idKey id ↔ id' = id := by
  rw [idKey, idKey, ← cmpBy_eq toNat_eq_zero]
  constructor
  · intro h
    have hswap : strncmp mtcUuidSize id id' = .eq := by
      rw [strncmp, cmpBy_eq toNat_eq_zero] at *
      exact h.symm
    exact ((strncmp_eq hid.1 hlen hid.2).1 hswap).symm
  · rintro rfl
    exact strncmp_self _ _

theorem idKey_lt {s t : MtcUuid} : idKey s < idKey t ↔ strncmp mtcUuidSize s t = .lt :=
  (cmpBy_lt toNat_eq_zero _ _ _).symm

/-! ## The last local HostID -/

/-- The text of the last local HostID of a section. -/
def lastHostId (cur : XmlNode) : Option CString := lastText (localElements cur) "HostID"

/-- The last local HostID among the elements of the root, and the elements behind its section. -/
def lastLocal : List XmlNode → Option (CString × List XmlNode)
  | [] => none
  | sub :: rest =>
    match lastLocal rest with
    | some r => some r
    | none => if sub.name = "local-config" then (lastHostId sub).map fun txt => (txt, rest) else none

/-- The `host` elements of the `common-config` elements among those of the root. -/
def commonHosts (subs : List XmlNode) : List XmlNode :=
  (subs.filter fun sub => sub.name = "common-config").flatMap fun common => common.named "host"

section

variable {getaddrinfo : CString → Option AddrInfo}

/-- After a local part the index is the place of its last HostID, if it has one. -/
theorem walkLocalConfig_last {c : HaConfigCommon} {l l' : HaConfigLocal} {cur : XmlNode}
    (h : walkLocalConfig c l cur = .ok l') :
    match lastHostId cur with
    | some me => ValidId me ∧ ∃ i, c.find me = some i ∧ l'.localhostIndex = BitVec.ofNat 32 i
    | none => l'.localhostIndex = l.localhostIndex := by
  rw [walkLocalConfig_eq] at h
  unfold lastHostId
  generalize localElements cur = subs at h
  induction subs using List.reverseRecOn generalizing l' with
  | nil => exact congrArg _ (foldlM_nil_ok.1 h).symm
  | append_singleton subs sub ih =>
    obtain ⟨t, ht, hsub⟩ : ∃ t, subs.foldlM (localhostElement c) l = .ok t ∧ localhostElement c t sub = .ok l' := by
      rw [List.foldlM_append] at h
      cases ht : subs.foldlM (localhostElement c) l with
      | error ret => rw [ht] at h; cases h
      | ok t =>
        rw [ht] at h
        obtain ⟨u, hu, hnil⟩ := foldlM_cons_ok.1 h
        exact ⟨t, rfl, (foldlM_nil_ok.1 hnil) ▸ hu⟩
    have hstep := localhostElement_index hsub
    by_cases hn : sub.name = "HostID"
    · rw [if_pos hn] at hstep
      obtain ⟨txt, i, htxt, hv, hi, hindex⟩ := hstep
      rw [lastText_append_pos hn, htxt]
      exact ⟨hv, i, hi, hindex⟩
    · rw [if_neg hn] at hstep
      rw [lastText_append_neg hn, hstep]
      exact ih ht

/-! ## The walk from a section on -/

/-- The elements of the root behind the last local HostID add their hosts to the table and leave the index alone. -/
theorem foldlM_rootElement {subs : List XmlNode} {c c' : HaConfigData}
    (h : subs.foldlM (rootElement getaddrinfo) c = .ok c') (hs : Sorted idKey c.common.hostIds) :
    Sorted idKey c'.common.hostIds ∧ c'.common.hostIds.Perm (c.common.hostIds ++ (commonHosts subs).map hostIdOf) ∧
      (lastLocal subs = none → c'.localConfig.localhostIndex = c.localConfig.localhostIndex) := by
  induction subs generalizing c with
  | nil =>
    obtain rfl := foldlM_nil_ok.1 h
    exact ⟨hs, by simp [commonHosts], fun _ => rfl⟩
  | cons sub rest ih =>
    obtain ⟨t, ht, hrest⟩ := foldlM_cons_ok.1 h
    -- what the element itself does
    have hstep : Sorted idKey t.common.hostIds ∧
        t.common.hostIds.Perm (c.common.hostIds ++ (commonHosts [sub]).map hostIdOf) ∧
        (lastLocal (sub :: rest) = none → t.localConfig.localhostIndex = c.localConfig.localhostIndex) := by
      unfold rootElement at ht
      by_cases hcommon : sub.name = "common-config"
      · rw [if_pos hcommon] at ht
        cases hw : walkCommonConfig getaddrinfo c.common sub with
        | error ret => rw [hw] at ht; cases ht
        | ok common =>
          rw [hw] at ht
          cases ht
          refine ⟨sorted_hostIds.2 (walkCommonConfig_sorted hw), ?_, fun _ => rfl⟩
          simpa [commonHosts, hcommon] using walkCommonConfig_perm hw
      · rw [if_neg hcommon] at ht
        have hnone : commonHosts [sub] = [] := by simp [commonHosts, hcommon]
        by_cases hlocal : sub.name = "local-config"
        · rw [if_pos hlocal] at ht
          cases hw : walkLocalConfig c.common c.localConfig sub with
          | error ret => rw [hw] at ht; cases ht
          | ok localConfig =>
            rw [hw] at ht
            cases ht
            refine ⟨hs, by simp [hnone], ?_⟩
            intro hlast
            have hid : lastHostId sub = none := by
              rw [lastLocal] at hlast
              split at hlast
              · cases hlast
              · simpa [hlocal] using hlast
            have hindex := walkLocalConfig_last hw
            rwa [hid] at hindex
        · rw [if_neg hlocal] at ht
          cases ht
          exact ⟨hs, by simp [hnone], fun _ => rfl⟩
    obtain ⟨hsorted, hperm, hindex⟩ := hstep
    obtain ⟨hsorted', hperm', hindex'⟩ := ih hrest hsorted
    refine ⟨hsorted', ?_, ?_⟩
    · have hsplit : commonHosts (sub :: rest) = commonHosts [sub] ++ commonHosts rest := by
        by_cases hcommon : sub.name = "common-config" <;> simp [commonHosts, hcommon]
      rw [hsplit, List.map_append, ← List.append_assoc]
      exact hperm'.trans (hperm.append_right _)
    · intro hlast
      refine (hindex' ?_).trans (hindex hlast)
      rw [lastLocal] at hlast
      split at hlast
      · cases hlast
      · assumption

/-- The index is the rank of the last local HostID in the table without the hosts that come behind it. -/
structure HaConfigData.LooksUp (c : HaConfigData) (me : CString) (later : List XmlNode) : Prop where
  valid : ValidId me
  sorted : Sorted idKey c.common.hostIds
  table : ∃ ids, c.common.hostIds.Perm (ids ++ (commonHosts later).map hostIdOf) ∧ packedId me ∈ ids ∧
    rank idKey ids (idKey (packedId me)) = c.localConfig.localhostIndex.toNat

theorem walk_looksUp {subs : List XmlNode} {c c' : HaConfigData} {me : CString} {later : List XmlNode}
    (h : subs.foldlM (rootElement getaddrinfo) c = .ok c') (hw : c.Walked) (hs : Sorted idKey c.common.hostIds)
    (hlast : lastLocal subs = some (me, later)) : c'.LooksUp me later := by
  induction subs generalizing c with
  | nil => cases hlast
  | cons sub rest ih =>
    obtain ⟨t, ht, hrest⟩ := foldlM_cons_ok.1 h
    have hone : [sub].foldlM (rootElement getaddrinfo) c = .ok t :=
      foldlM_cons_ok.2 ⟨t, ht, foldlM_nil_ok.2 rfl⟩
    obtain ⟨hsorted, -, -⟩ := foldlM_rootElement hone hs
    rw [lastLocal] at hlast
    split at hlast
    · rename_i r hr
      cases hlast
      exact ih hrest (hw.root ht) hsorted hr
    · rename_i hnone
      split at hlast
      · rename_i hlocal
        obtain ⟨me', hid, heq⟩ := Option.map_eq_some_iff.1 hlast
        cases heq
        -- the section of the last HostID: the lookup is in the table as it is there
        have hcommon : sub.name ≠ "common-config" := by rw [hlocal]; decide
        unfold rootElement at ht
        rw [if_neg hcommon, if_pos hlocal] at ht
        cases hwalk : walkLocalConfig c.common c.localConfig sub with
        | error ret => rw [hwalk] at ht; cases ht
        | ok localConfig =>
          rw [hwalk] at ht
          cases ht
          have hindex := walkLocalConfig_last hwalk
          rw [hid] at hindex
          obtain ⟨hv, i, hi, hindex⟩ := hindex
          obtain ⟨hsorted', hperm', hindex'⟩ := foldlM_rootElement hrest hs
          refine ⟨hv, hsorted', c.common.hostIds, hperm', ?_, ?_⟩
          · obtain ⟨hlt, heq, -⟩ := List.findIdx?_eq_some_iff_getElem.1 hi
            have hmem : c.common.host[i].hostId ∈ c.common.hostIds := List.mem_map_of_mem (List.getElem_mem hlt)
            have hsame : packedId me = c.common.host[i].hostId :=
              (strncmp_eq hv (hw.hostId _ hmem) (nul_notMem_packedId me)).1 (of_decide_eq_true heq)
            rw [hsame]
            exact hmem
          · have hfind : c.common.hostIds.findIdx? (fun id => strncmp mtcUuidSize (packedId me) id = .eq) = some i := by
              rw [HaConfigCommon.hostIds, List.findIdx?_map]
              exact hi
            have hkey : ∀ id, decide (strncmp mtcUuidSize (packedId me) id = .eq) = true ↔
                idKey id = idKey (packedId me) := by
              intro id
              rw [decide_eq_true_iff, strncmp, cmpBy_eq toNat_eq_zero]
              exact eq_comm
            rw [hindex' hnone, hindex, rank_of_findIdx? hkey hs hfind, BitVec.toNat_ofNat, Nat.mod_eq_of_lt]
            obtain ⟨hlt, -⟩ := List.findIdx?_eq_some_iff_getElem.1 hi
            exact lt_trans (lt_of_lt_of_le hlt c.common.hostnum_le) (by decide)
      · cases hlast

/-- A walk that ends with an index has looked up a HostID. -/
theorem lastLocal_of_index {subs : List XmlNode} {c c' : HaConfigData}
    (h : subs.foldlM (rootElement getaddrinfo) c = .ok c') (hs : Sorted idKey c.common.hostIds)
    (hne : c'.localConfig.localhostIndex ≠ c.localConfig.localhostIndex) : ∃ me later, lastLocal subs = some (me, later) := by
  cases hlast : lastLocal subs with
  | none => exact absurd ((foldlM_rootElement h hs).2.2 hlast) hne
  | some r => exact ⟨r.1, r.2, rfl⟩

/-! ## Accepted documents -/

theorem initial_sorted : Sorted idKey HaConfigCommon.initial.hostIds := List.Pairwise.nil

/-- An accepted document has looked up its last local HostID. -/
theorem interpretConfigFile_looksUp {doc : XmlDoc} {c : HaConfigData}
    (h : interpretConfigFile getaddrinfo (.document doc) = .ok c) :
    ∃ me later, lastLocal doc.root.children = some (me, later) ∧ c.LooksUp me later := by
  have hwf := interpretConfigFile_wellFormed h
  obtain ⟨-, ⟨version, -, -, hf⟩, -⟩ := interpretConfigFile_ok.1 h
  have hset : c.localConfig.localhostIndex ≠ HaConfigLocal.initial.localhostIndex := by
    intro he
    have h64 := lt_of_lt_of_le hwf.localhost c.common.hostnum_le
    rw [he] at h64
    exact absurd h64 (by decide)
  obtain ⟨me, later, hlast⟩ := lastLocal_of_index hf initial_sorted hset
  exact ⟨me, later, hlast, walk_looksUp hf (.initial version.chars) initial_sorted hlast⟩

/-- The hosts that come later and sort before the local HostID move it from its place. -/
theorem HaConfigData.LooksUp.names_iff {c : HaConfigData} {me : CString} {later : List XmlNode} (h : c.LooksUp me later)
    (hwf : c.WellFormed) :
    c.common.hostIds[c.localConfig.localhostIndex.toNat]? = some (packedId me) ↔
      ∀ host ∈ commonHosts later, strncmp mtcUuidSize (hostIdOf host) (packedId me) ≠ .lt := by
  obtain ⟨hv, hsorted, ids, hperm, hmem, hrank⟩ := h
  have hsum : rank idKey c.common.hostIds (idKey (packedId me)) =
      c.localConfig.localhostIndex.toNat + rank idKey ((commonHosts later).map hostIdOf) (idKey (packedId me)) := by
    rw [rank_perm hperm, rank_append, hrank]
  have hlate : rank idKey ((commonHosts later).map hostIdOf) (idKey (packedId me)) = 0 ↔
      ∀ host ∈ commonHosts later, strncmp mtcUuidSize (hostIdOf host) (packedId me) ≠ .lt := by
    rw [rank_eq_zero, List.forall_mem_map]
    refine forall₂_congr fun host _ => ?_
    rw [ne_eq, ← idKey_lt, not_lt]
  rw [← hlate]
  constructor
  · intro hi
    have hle := rank_le_of_getElem? hsorted hi
    omega
  · intro hzero
    obtain ⟨id, hid, hkey⟩ := getElem?_rank hsorted ⟨_, hperm.mem_iff.2 (List.mem_append_left _ hmem), rfl⟩
    have hlen : id.length = mtcUuidSize := hwf.hostId id (List.mem_of_getElem? hid)
    rw [(idKey_eq ⟨hv, nul_notMem_packedId me⟩ hlen).1 hkey, hsum, hzero, Nat.add_zero] at hid
    exact hid

/-- The local index of an accepted document is that of a host of the table. It names the host of the last local
HostID if and only if no host that a `common-config` element adds behind that HostID sorts before it. -/
theorem local_index_names_iff {doc : XmlDoc} {c : HaConfigData}
    (h : interpretConfigFile getaddrinfo (.document doc) = .ok c) :
    c.localConfig.localhostIndex.toNat < c.common.hostnum ∧
      ∃ me later, lastLocal doc.root.children = some (me, later) ∧
        (c.common.hostIds[c.localConfig.localhostIndex.toNat]? = some (packedId me) ↔
          ∀ host ∈ commonHosts later, strncmp mtcUuidSize (hostIdOf host) (packedId me) ≠ .lt) := by
  have hwf := interpretConfigFile_wellFormed h
  obtain ⟨me, later, hlast, hlooks⟩ := interpretConfigFile_looksUp h
  exact ⟨hwf.localhost, me, later, hlast, hlooks.names_iff hwf⟩

/-! ### A host that comes late -/

/-- The document with another `common-config` element at its end. -/
def XmlDoc.addHost (doc : XmlDoc) (host : XmlNode) : XmlDoc :=
  { doc with root := { doc.root with children := doc.root.children ++ [⟨"common-config", none, [host]⟩] } }

/-- A table that is not full takes it. -/
theorem addHost_accepted {doc : XmlDoc} {c : HaConfigData} {host : XmlNode}
    (h : interpretConfigFile getaddrinfo (.document doc) = .ok c) (hlt : c.common.hostnum < maxHostNum)
    (hname : host.name = "host") (hid : ∀ sub ∈ host.named "HostID", ∃ txt, sub.txt = some txt)
    (haddr : ∀ sub ∈ host.named "IPaddress", ∃ txt addr, sub.txt = some txt ∧ getaddrinfo txt = some addr ∧
      addr ≠ .other) :
    ∃ c', interpretConfigFile getaddrinfo (.document (doc.addHost host)) = .ok c' := by
  obtain ⟨hroot, ⟨version, hver, hvalid, hf⟩, hconfig⟩ := interpretConfigFile_ok.1 h
  obtain ⟨common, hcommon, hnum, hgen, hport⟩ := walkHostConfig_total hlt hid haddr
  have hwalk : walkCommonConfig getaddrinfo c.common ⟨"common-config", none, [host]⟩ = .ok common.sortHosts := by
    have hone : [host].foldlM (commonElement getaddrinfo) c.common = .ok common := by
      refine foldlM_cons_ok.2 ⟨common, ?_, foldlM_nil_ok.2 rfl⟩
      simp [commonElement, hname, hcommon]
    rw [walkCommonConfig, hone]
    rfl
  refine ⟨{ c with common := common.sortHosts }, interpretConfigFile_ok.2 ⟨hroot, ⟨version, hver, hvalid, ?_⟩, ?_⟩⟩
  · rw [XmlDoc.addHost, List.foldlM_append, hf]
    refine foldlM_cons_ok.2 ⟨_, ?_, foldlM_nil_ok.2 rfl⟩
    simp [rootElement, hwalk, Except.map]
  · simp only [validConfig, Bool.and_eq_true, decide_eq_true_iff] at hconfig ⊢
    obtain ⟨⟨⟨⟨⟨h1, h2⟩, -⟩, h4⟩, h5⟩, h6⟩ := hconfig
    have hnum' : common.sortHosts.hostnum = c.common.hostnum + 1 := (List.length_mergeSort _).trans hnum
    refine ⟨⟨⟨⟨⟨?_, ?_⟩, ?_⟩, h4⟩, h5⟩, h6⟩
    · exact hgen ▸ h1
    · exact hport ▸ h2
    · rw [hnum']
      exact Nat.succ_ne_zero _

end

/-- A pool whose second host is listed behind the local section of the first one. -/
theorem latePool_accepted (me other : CString × CString) (hme : me = firstHost ∨ me = secondHost)
    (hother : other = firstHost ∨ other = secondHost) :
    ∃ c, interpretConfigFile poolAddress (.document ((poolDoc [me] [] me.1).addHost (poolHost other))) = .ok c := by
  have hlists := poolDoc_lists [me] [] me.1
  have hvalid : ∀ host : CString × CString, host = firstHost ∨ host = secondHost → ValidId host.1 := by
    rintro host (rfl | rfl) <;> decide
  have hcomplete : (poolDoc [me] [] me.1).Complete poolAddress (poolCommon [me] []) (poolLocal me.1) :=
    poolDoc_complete _ (fun host hhost => poolAddress_some host (by rw [List.mem_singleton.1 hhost]; exact hme)) nofun
  obtain ⟨c, hc⟩ := hlists.accepted hcomplete (by simpa using hvalid me hme)
    (by rw [List.length_map, List.length_singleton]; decide) (by simp)
  have hnum : c.common.hostnum = 1 := by
    obtain ⟨hperm, -⟩ := hlists.table (by simpa using hvalid me hme) (by simp) hc
    rw [← HaConfigCommon.length_hostIds]
    exact hperm.length_eq
  obtain ⟨addr, haddr, hne⟩ := poolAddress_some other hother
  refine addHost_accepted hc (by rw [hnum]; decide) rfl ?_ ?_
  · simp [poolHost, XmlNode.named, XmlNode.leaf]
  · simpa [poolHost, XmlNode.named, XmlNode.leaf] using ⟨addr, haddr, hne⟩

theorem latePool_lastLocal (me other : CString × CString) :
    lastLocal ((poolDoc [me] [] me.1).addHost (poolHost other)).root.children =
      some (me.1, [⟨"common-config", none, [poolHost other]⟩]) := by
  simp [XmlDoc.addHost, poolDoc, poolCommon, poolLocal, lastLocal, lastHostId, lastText, localElements,
    XmlNode.named, XmlNode.leaf]

theorem latePool_hosts (other : CString × CString) :
    commonHosts [⟨"common-config", none, [poolHost other]⟩] = [poolHost other] := by
  simp [commonHosts, XmlNode.named, poolHost]

/-- The first host is named also when the second one is listed late. -/
theorem local_index_names_iff_late :
    ∃ c, interpretConfigFile poolAddress (.document ((poolDoc [firstHost] [] firstHost.1).addHost (poolHost secondHost))) =
        .ok c ∧ c.localConfig.localhostIndex.toNat < c.common.hostnum ∧
      c.common.hostIds[c.localConfig.localhostIndex.toNat]? = some (packedId firstHost.1) := by
  obtain ⟨c, hc⟩ := latePool_accepted firstHost secondHost (.inl rfl) (.inr rfl)
  obtain ⟨hlt, me, later, hlast, hiff⟩ := local_index_names_iff hc
  rw [latePool_lastLocal, Option.some.injEq, Prod.mk.injEq] at hlast
  obtain ⟨rfl, rfl⟩ := hlast
  refine ⟨c, hc, hlt, hiff.2 ?_⟩
  rw [latePool_hosts]
  decide

/-- The second host takes the first one, listed late, for itself. -/
theorem late_host_is_taken_for_local :
    ∃ c, interpretConfigFile poolAddress (.document ((poolDoc [secondHost] [] secondHost.1).addHost (poolHost firstHost))) =
        .ok c ∧
      lastLocal ((poolDoc [secondHost] [] secondHost.1).addHost (poolHost firstHost)).root.children =
        some (secondHost.1, [⟨"common-config", none, [poolHost firstHost]⟩]) ∧
      c.common.hostIds[c.localConfig.localhostIndex.toNat]? ≠ some (packedId secondHost.1) := by
  obtain ⟨c, hc⟩ := latePool_accepted secondHost firstHost (.inr rfl) (.inl rfl)
  obtain ⟨me, later, hlast, hlooks⟩ := interpretConfigFile_looksUp hc
  have hlate := latePool_lastLocal secondHost firstHost
  obtain ⟨rfl, rfl⟩ := Prod.mk.inj (Option.some.inj (hlast.symm.trans hlate))
  refine ⟨c, hc, hlate, ?_⟩
  rw [ne_eq, hlooks.names_iff (interpretConfigFile_wellFormed hc), latePool_hosts]
  decide

end Xha
