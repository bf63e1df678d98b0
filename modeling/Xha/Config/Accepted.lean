/-
What every accepted configuration satisfies: identifiers of full length, a whole generation UUID, and a local
index in the host table. A `host_id` may still hold zero bytes: `walk_host_config` takes short HostIDs.
-/
import Xha.Config.Numbering

namespace Xha

open CString Loop

/-! ## The common part -/

theorem uuidStrcpy_length (txt : CString) : (uuidStrcpy txt).2.length = mtcUuidSize := by
  rw [uuidStrcpy_eq, List.length_append, List.length_take, List.length_replicate]
  omega

theorem hostIdOf_length (cur : XmlNode) : (hostIdOf cur).length = mtcUuidSize := by
  rw [hostIdOf]
  generalize cur.named "HostID" = subs
  have hcleared : mtcUuidCleared.length = mtcUuidSize := List.length_replicate
  generalize mtcUuidCleared = id at hcleared ⊢
  induction subs generalizing id with
  | nil => exact hcleared
  | cons sub subs ih =>
    refine ih _ ?_
    dsimp only
    cases sub.txt with
    | none => exact hcleared
    | some txt => exact uuidStrcpy_length txt

/-- An identifier of 32 characters, none of them zero. -/
def WholeId (id : MtcUuid) : Prop := id.length = mtcUuidSize ∧ '\x00' ∉ id

section

variable {getaddrinfo : CString → Option AddrInfo}

theorem walkHostConfig_rest {c c' : HaConfigCommon} {cur : XmlNode} (h : walkHostConfig getaddrinfo c cur = .ok c') :
    c'.generationUuid = c.generationUuid ∧ c'.parameter = c.parameter := by
  unfold walkHostConfig at h
  split at h
  · cases h
  · cases hf : cur.children.foldlM (hostElement getaddrinfo) .cleared with
    | error ret => rw [hf] at h; cases h
    | ok info => rw [hf] at h; cases h; exact ⟨rfl, rfl⟩

theorem parameterElement_generation {c c' : HaConfigCommon} {sub : XmlNode} (h : parameterElement c sub = .ok c') :
    c'.generationUuid = c.generationUuid := by
  unfold parameterElement at h
  repeat' split at h
  all_goals first | (cases h; rfl) | cases h

/-- A `GenerationUUID` is a valid one; the other elements leave it alone. -/
theorem commonElement_generation {c c' : HaConfigCommon} {sub : XmlNode}
    (h : commonElement getaddrinfo c sub = .ok c') :
    if sub.name = "GenerationUUID" then ∃ txt, sub.txt = some txt ∧ ValidId txt ∧ c'.generationUuid = packedId txt
    else c'.generationUuid = c.generationUuid := by
  unfold commonElement at h
  by_cases hg : sub.name = "GenerationUUID"
  · rw [if_pos hg] at h ⊢
    cases htxt : sub.txt with
    | none => simp [htxt] at h
    | some txt =>
      simp only [htxt] at h
      by_cases hret : (uuidStrcpy txt).1 = mtcSuccess
      · have hv := uuidStrcpy_success.mp hret
        rw [if_neg (not_not_intro hret), uuidStrcpy_valid hv] at h
        cases h
        exact ⟨txt, rfl, hv, rfl⟩
      · rw [if_pos hret] at h
        cases h
  · rw [if_neg hg] at h ⊢
    by_cases hhost : sub.name = "host"
    · simp only [hhost, String.reduceEq, if_false, if_true] at h
      exact (walkHostConfig_rest h).1
    · by_cases hp : sub.name = "parameters"
      · simp only [hp, String.reduceEq, if_false, if_true] at h
        exact foldlM_inv (fun d : HaConfigCommon => d.generationUuid = c.generationUuid) h rfl
          fun x _ t t' ht => (parameterElement_generation ht).trans
      · rw [if_neg hhost, if_neg hp] at h
        dsimp only at h
        repeat' split at h
        all_goals first | (cases h; rfl) | cases h

/-- The generation UUID is the last one of the common section. -/
theorem walkCommonConfig_generation {c c' : HaConfigCommon} {cur : XmlNode}
    (h : walkCommonConfig getaddrinfo c cur = .ok c') :
    c'.generationUuid =
      (cur.named "GenerationUUID").foldl (fun id sub => sub.txt.elim id packedId) c.generationUuid := by
  obtain ⟨d, hf, rfl⟩ := walkCommonConfig_ok h
  rw [XmlNode.named, List.foldl_filter]
  refine foldlM_proj (·.generationUuid) _ hf fun t sub t' ht => ?_
  have hstep := commonElement_generation ht
  by_cases hg : sub.name = "GenerationUUID"
  · rw [if_pos hg] at hstep
    obtain ⟨txt, htxt, -, he⟩ := hstep
    simp [hg, htxt, he]
  · rw [if_neg hg] at hstep
    simp [hg, hstep]

/-! ## The whole walk -/

/-- What holds of the configuration throughout the walk. -/
structure HaConfigData.Walked (c : HaConfigData) : Prop where
  hostId : ∀ id ∈ c.common.hostIds, id.length = mtcUuidSize
  generation : c.common.generationUuid = mtcUuidCleared ∨ WholeId c.common.generationUuid
  localhost : c.localConfig.localhostIndex = -1 ∨ c.localConfig.localhostIndex.toNat < c.common.hostnum

theorem HaConfigData.Walked.initial (version : List Char) : HaConfigData.Walked ⟨version, .initial, .initial⟩ :=
  ⟨by simp [HaConfigCommon.initial, HaConfigCommon.hostIds], .inl rfl, .inl rfl⟩

theorem HaConfigCommon.length_hostIds (c : HaConfigCommon) : c.hostIds.length = c.hostnum := List.length_map ..

theorem HaConfigData.Walked.common {c : HaConfigData} (h : c.Walked) {common : HaConfigCommon} {cur : XmlNode}
    (hc : walkCommonConfig getaddrinfo c.common cur = .ok common) : HaConfigData.Walked { c with common } := by
  have hperm := walkCommonConfig_perm hc
  refine ⟨fun id hid => ?_, ?_, ?_⟩
  · rcases List.mem_append.mp (hperm.mem_iff.mp hid) with hid | hid
    · exact h.hostId id hid
    · obtain ⟨host, -, rfl⟩ := List.mem_map.mp hid
      exact hostIdOf_length host
  · obtain ⟨d, hf, rfl⟩ := walkCommonConfig_ok hc
    have hgen : d.generationUuid = mtcUuidCleared ∨ WholeId d.generationUuid := by
      refine foldlM_inv (fun d : HaConfigCommon => d.generationUuid = mtcUuidCleared ∨ WholeId d.generationUuid) hf
        h.generation fun x _ t t' ht hgen => ?_
      have hstep := commonElement_generation ht
      split at hstep
      · obtain ⟨txt, -, hv, he⟩ := hstep
        rw [he]
        exact .inr ⟨hv, nul_notMem_packedId txt⟩
      · rw [hstep]
        exact hgen
    exact hgen
  · refine h.localhost.imp_right fun hlt => lt_of_lt_of_le hlt ?_
    have hlen := hperm.length_eq
    rw [List.length_append, HaConfigCommon.length_hostIds, HaConfigCommon.length_hostIds] at hlen
    exact hlen ▸ Nat.le_add_right ..

theorem HaConfigData.Walked.localPart {c : HaConfigData} (h : c.Walked) {localConfig : HaConfigLocal} {cur : XmlNode}
    (hc : walkLocalConfig c.common c.localConfig cur = .ok localConfig) : HaConfigData.Walked { c with localConfig } := by
  refine ⟨h.hostId, h.generation, ?_⟩
  rw [walkLocalConfig_eq] at hc
  refine foldlM_inv (fun l : HaConfigLocal => l.localhostIndex = -1 ∨ l.localhostIndex.toNat < c.common.hostnum) hc
    h.localhost fun x _ l l' hl hindex => ?_
  have hstep := localhostElement_index hl
  split at hstep
  · obtain ⟨txt, i, -, -, hi, he⟩ := hstep
    obtain ⟨hlt, -⟩ := List.findIdx?_eq_some_iff_getElem.mp hi
    have h64 : i < maxHostNum := lt_of_lt_of_le hlt c.common.hostnum_le
    right
    rw [he, BitVec.toNat_ofNat, Nat.mod_eq_of_lt (lt_trans h64 (by decide))]
    exact hlt
  · rw [hstep]
    exact hindex

theorem HaConfigData.Walked.root {c c' : HaConfigData} (h : c.Walked) {sub : XmlNode}
    (hc : rootElement getaddrinfo c sub = .ok c') : c'.Walked := by
  unfold rootElement at hc
  split at hc
  · cases hcommon : walkCommonConfig getaddrinfo c.common sub with
    | error ret => rw [hcommon] at hc; cases hc
    | ok common =>
      rw [hcommon] at hc
      cases hc
      exact h.common hcommon
  · split at hc
    · cases hlocal : walkLocalConfig c.common c.localConfig sub with
      | error ret => rw [hlocal] at hc; cases hc
      | ok localConfig =>
        rw [hlocal] at hc
        cases hc
        exact h.localPart hlocal
    · cases hc
      exact h

/-- What every accepted configuration satisfies. -/
structure HaConfigData.WellFormed (c : HaConfigData) : Prop where
  hostId : ∀ id ∈ c.common.hostIds, id.length = mtcUuidSize
  generation : WholeId c.common.generationUuid
  localhost : c.localConfig.localhostIndex.toNat < c.common.hostnum

theorem interpretConfigFile_wellFormed {file : ConfigFile} {c : HaConfigData}
    (h : interpretConfigFile getaddrinfo file = .ok c) : c.WellFormed := by
  cases file with
  | notFound | invalidXml | noRoot => cases h
  | document doc =>
    obtain ⟨-, ⟨version, -, -, hf⟩, hv⟩ := interpretConfigFile_ok.mp h
    have hw : c.Walked := foldlM_inv HaConfigData.Walked hf (.initial version.chars) fun _ _ _ _ ht hw => hw.root ht
    simp only [validConfig, Bool.and_eq_true, decide_eq_true_iff] at hv
    obtain ⟨⟨⟨⟨⟨hgen, -⟩, -⟩, -⟩, -⟩, hindex⟩ := hv
    refine ⟨hw.hostId, hw.generation.resolve_left fun he => ?_, hw.localhost.resolve_left fun he => ?_⟩
    · rw [he] at hgen
      exact hgen rfl
    · rw [he] at hindex
      exact absurd hindex (by decide)

end

end Xha
