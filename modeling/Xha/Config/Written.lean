/-
What an accepted configuration has of what its document says. `walk_host_config` takes HostIDs of any length,
and `strtol` any number, also none at all; each is what the document says exactly when it is well written
(`accepted_as_written_iff`). Each value is first traced to the text it comes from, then compared with it.
-/
import Xha.Config.LocalIndex
import Xha.Config.Parameters

namespace Xha

open CString Loop Wrap

/-! ## The elements of a document -/

/-- The children of the `common-config` elements, in order. -/
def XmlDoc.settings (doc : XmlDoc) : List XmlNode :=
  (doc.root.children.filter fun sub => sub.name = "common-config").flatMap (·.children)

def XmlDoc.hosts (doc : XmlDoc) : List XmlNode := doc.settings.filter fun sub => sub.name = "host"

/-- The HostIDs that are written in the `host` elements. -/
def XmlDoc.hostIdTexts (doc : XmlDoc) : List CString :=
  doc.hosts.flatMap fun host => (host.named "HostID").filterMap (·.txt)

/-- The children of the `parameters` elements, in order. -/
def XmlDoc.parameters (doc : XmlDoc) : List XmlNode :=
  (doc.settings.filter fun sub => sub.name = "parameters").flatMap (·.children)

/-- The configuration is what the document says: each identifier of the table consists of the characters of a
HostID that has exactly 32 of them, and each number that the document sets is the last one written. -/
structure HaConfigData.AsWritten (doc : XmlDoc) (c : HaConfigData) : Prop where
  hosts : ∀ id ∈ c.common.hostIds, ∃ txt ∈ doc.hostIdTexts, ValidId txt ∧ id = packedId txt
  parameter : ∀ (p : Parameter) (txt : CString), lastText doc.parameters p.name = some txt →
    Holds txt (c.common.parameter p)
  port : ∀ txt, lastText doc.settings "UDPport" = some txt → Holds txt c.common.udpPort

/-- The HostID of a host is valid; a longer one is cut, which goes well if what is left is another valid one. -/
def XmlDoc.GoodId (doc : XmlDoc) (txt : CString) : Prop :=
  ValidId txt ∨ mtcUuidSize < (packedId txt).length ∧
    ∃ other ∈ doc.hostIdTexts, ValidId other ∧ packedId other = (packedId txt).take mtcUuidSize

/-- Each host has a good HostID as its last one, and each number that is set fits. -/
structure XmlDoc.WellWritten (doc : XmlDoc) : Prop where
  hosts : ∀ host ∈ doc.hosts, ∃ txt, lastText host.children "HostID" = some txt ∧ doc.GoodId txt
  parameter : ∀ (p : Parameter) (txt : CString), lastText doc.parameters p.name = some txt → FitsU32 txt
  port : ∀ txt, lastText doc.settings "UDPport" = some txt → FitsU32 txt

section

variable {getaddrinfo : CString → Option AddrInfo}

/-! ## The walk over the settings -/

/-- Part of the configuration that only the elements of the `common-config` sections change. -/
theorem foldlM_settings {τ : Type} (π : HaConfigCommon → τ) (g : τ → XmlNode → τ)
    (hg : ∀ c sub c', commonElement getaddrinfo c sub = .ok c' → π c' = g (π c) sub)
    (hsort : ∀ c : HaConfigCommon, π c.sortHosts = π c) {doc : XmlDoc} {c : HaConfigData}
    (h : interpretConfigFile getaddrinfo (.document doc) = .ok c) :
    π c.common = doc.settings.foldl g (π .initial) := by
  obtain ⟨-, ⟨version, -, -, hf⟩, -⟩ := interpretConfigFile_ok.1 h
  rw [XmlDoc.settings, List.foldl_flatMap, List.foldl_filter]
  refine foldlM_proj (fun d : HaConfigData => π d.common) _ hf ?_
  intro d sub d' hd
  unfold rootElement at hd
  by_cases hcommon : sub.name = "common-config"
  · rw [if_pos hcommon, walkCommonConfig] at hd
    cases hw : sub.children.foldlM (commonElement getaddrinfo) d.common with
    | error ret => rw [hw] at hd; cases hd
    | ok common =>
      rw [hw] at hd
      cases hd
      rw [if_pos (by simp [hcommon])]
      exact (hsort common).trans (foldlM_proj π g hw hg)
  · rw [if_neg hcommon] at hd
    rw [if_neg (by simp [hcommon])]
    by_cases hlocal : sub.name = "local-config"
    · rw [if_pos hlocal] at hd
      cases hw : walkLocalConfig d.common d.localConfig sub with
      | error ret => rw [hw] at hd; cases hd
      | ok localConfig => rw [hw] at hd; cases hd; rfl
    · rw [if_neg hlocal] at hd
      cases hd
      rfl

/-- Every element of the settings of an accepted document is taken. -/
theorem settings_taken {doc : XmlDoc} {c : HaConfigData} (h : interpretConfigFile getaddrinfo (.document doc) = .ok c)
    {sub : XmlNode} (hsub : sub ∈ doc.settings) : ∃ t t', commonElement getaddrinfo t sub = .ok t' := by
  obtain ⟨-, ⟨version, -, -, hf⟩, -⟩ := interpretConfigFile_ok.1 h
  obtain ⟨common, hcommon, hchild⟩ := List.mem_flatMap.1 hsub
  rw [List.mem_filter, decide_eq_true_iff] at hcommon
  obtain ⟨d, d', hd⟩ := foldlM_mem hf hcommon.1
  rw [rootElement, if_pos hcommon.2, walkCommonConfig] at hd
  cases hw : common.children.foldlM (commonElement getaddrinfo) d.common with
  | error ret => rw [hw] at hd; cases hd
  | ok common' => exact foldlM_mem hw hchild

/-! ## The hosts -/

theorem host_texts {doc : XmlDoc} {c : HaConfigData} (h : interpretConfigFile getaddrinfo (.document doc) = .ok c)
    {host : XmlNode} (hhost : host ∈ doc.hosts) : ∀ sub ∈ host.named "HostID", ∃ txt, sub.txt = some txt := by
  intro sub hsub
  rw [XmlDoc.hosts, List.mem_filter, decide_eq_true_iff] at hhost
  obtain ⟨t, t', ht⟩ := settings_taken h hhost.1
  simp only [commonElement, hhost.2, String.reduceEq, if_false, if_true, walkHostConfig] at ht
  rw [mem_named] at hsub
  split at ht
  · cases ht
  · cases hf : host.children.foldlM (hostElement getaddrinfo) .cleared with
    | error ret => rw [hf] at ht; cases ht
    | ok info =>
      obtain ⟨u, u', hu⟩ := foldlM_mem hf hsub.1
      rw [hostElement, if_pos hsub.2] at hu
      cases htxt : sub.txt with
      | none => rw [htxt] at hu; cases hu
      | some txt => exact ⟨txt, rfl⟩

/-- A `host` element leaves the HostID of its last text. -/
theorem hostIdOf_eq {host : XmlNode} (h : ∀ sub ∈ host.named "HostID", ∃ txt, sub.txt = some txt) :
    hostIdOf host = (lastText host.children "HostID").elim mtcUuidCleared fun txt => (uuidStrcpy txt).2 := by
  unfold hostIdOf XmlNode.named at *
  generalize host.children = subs at h ⊢
  induction subs using List.reverseRecOn with
  | nil => rfl
  | append_singleton subs sub ih =>
    rw [List.filter_append] at h ⊢
    by_cases hn : sub.name = "HostID"
    · obtain ⟨txt, htxt⟩ := h sub (List.mem_append_right _ (by simp [hn]))
      rw [lastText_append_pos hn, htxt, List.filter_cons_of_pos (by simp [hn]), List.filter_nil, List.foldl_append]
      simp [htxt]
    · rw [lastText_append_neg hn, List.filter_cons_of_neg (by simp [hn]), List.filter_nil, List.append_nil] at *
      exact ih h

/-- The table holds the HostIDs that the `host` elements leave. -/
theorem hostIds_perm {doc : XmlDoc} {c : HaConfigData} (h : interpretConfigFile getaddrinfo (.document doc) = .ok c) :
    c.common.hostIds.Perm (doc.hosts.map hostIdOf) := by
  obtain ⟨-, ⟨version, -, -, hf⟩, -⟩ := interpretConfigFile_ok.1 h
  have hperm := (foldlM_rootElement hf initial_sorted).2.1
  have hhosts : commonHosts doc.root.children = doc.hosts := by
    rw [commonHosts, XmlDoc.hosts, XmlDoc.settings, List.filter_flatMap]
    rfl
  rw [hhosts] at hperm
  exact hperm

theorem mem_hostIdTexts {doc : XmlDoc} {txt : CString} :
    txt ∈ doc.hostIdTexts ↔ ∃ host ∈ doc.hosts, ∃ sub ∈ host.named "HostID", sub.txt = some txt := by
  simp only [XmlDoc.hostIdTexts, List.mem_flatMap, List.mem_filterMap]

/-- The last text of a name is that of an element of this name. -/
theorem mem_of_lastText {subs : List XmlNode} {name : String} {txt : CString} (h : lastText subs name = some txt) :
    ∃ sub ∈ subs, sub.name = name ∧ sub.txt = some txt := by
  obtain ⟨sub, hlast, htxt⟩ := Option.bind_eq_some_iff.1 h
  have hmem := List.mem_of_getLast? hlast
  rw [List.mem_filter, decide_eq_true_iff] at hmem
  exact ⟨sub, hmem.1, hmem.2, htxt⟩

/-- What is stored of a text is a HostID of the document exactly when the text is good. -/
theorem stored_iff {doc : XmlDoc} {txt : CString} (hmem : txt ∈ doc.hostIdTexts) :
    (∃ other ∈ doc.hostIdTexts, ValidId other ∧ (uuidStrcpy txt).2 = packedId other) ↔ doc.GoodId txt := by
  rw [uuidStrcpy_eq]
  constructor
  · rintro ⟨other, hother, hvalid, heq⟩
    dsimp only at heq
    rcases Nat.lt_trichotomy (packedId txt).length mtcUuidSize with hlt | hlen | hgt
    · -- a short text leaves NULs
      have hnul : '\x00' ∈ packedId other := by
        rw [← heq]
        refine List.mem_append_right _ (List.mem_replicate.2 ⟨?_, rfl⟩)
        omega
      exact absurd hnul (nul_notMem_packedId other)
    · exact .inl hlen
    · rw [Nat.sub_eq_zero_of_le hgt.le, List.replicate_zero, List.append_nil] at heq
      exact .inr ⟨hgt, other, hother, hvalid, heq.symm⟩
  · rintro (hvalid | ⟨hgt, other, hother, hvalid, heq⟩)
    · have hlen : (packedId txt).length = mtcUuidSize := hvalid
      exact ⟨txt, hmem, hvalid, by simp [hlen, List.take_of_length_le hlen.le]⟩
    · refine ⟨other, hother, hvalid, ?_⟩
      rw [Nat.sub_eq_zero_of_le hgt.le, List.replicate_zero, List.append_nil, heq]

/-- The table is made of HostIDs of the document exactly when the last one of every host is good. -/
theorem hosts_written_iff {doc : XmlDoc} {c : HaConfigData}
    (h : interpretConfigFile getaddrinfo (.document doc) = .ok c) :
    (∀ id ∈ c.common.hostIds, ∃ txt ∈ doc.hostIdTexts, ValidId txt ∧ id = packedId txt) ↔
    ∀ host ∈ doc.hosts, ∃ txt, lastText host.children "HostID" = some txt ∧ doc.GoodId txt := by
  have hids : ∀ id, id ∈ c.common.hostIds ↔ ∃ host ∈ doc.hosts, hostIdOf host = id := by
    intro id
    rw [(hostIds_perm h).mem_iff, List.mem_map]
  have hstored : ∀ host ∈ doc.hosts, ∀ txt, lastText host.children "HostID" = some txt →
      txt ∈ doc.hostIdTexts ∧ hostIdOf host = (uuidStrcpy txt).2 := by
    intro host hhost txt hlast
    obtain ⟨sub, hsub, hname, htxt⟩ := mem_of_lastText hlast
    refine ⟨mem_hostIdTexts.2 ⟨host, hhost, sub, mem_named.2 ⟨hsub, hname⟩, htxt⟩, ?_⟩
    rw [hostIdOf_eq (host_texts h hhost), hlast]
    rfl
  constructor
  · rintro hall host hhost
    obtain ⟨other, hother, hvalid, heq⟩ := hall _ ((hids _).2 ⟨host, hhost, rfl⟩)
    cases hlast : lastText host.children "HostID" with
    | none =>
      -- without a HostID the slot stays cleared
      rw [hostIdOf_eq (host_texts h hhost), hlast] at heq
      refine absurd ?_ (nul_notMem_packedId other)
      rw [← heq]
      decide
    | some txt =>
      obtain ⟨hmem, hid⟩ := hstored host hhost txt hlast
      exact ⟨txt, rfl, (stored_iff hmem).1 ⟨other, hother, hvalid, hid ▸ heq⟩⟩
  · rintro hall id hid
    obtain ⟨host, hhost, rfl⟩ := (hids id).1 hid
    obtain ⟨txt, hlast, hgood⟩ := hall host hhost
    obtain ⟨hmem, hid⟩ := hstored host hhost txt hlast
    rw [hid]
    exact (stored_iff hmem).2 hgood

/-! ## The numbers -/

/-- The element of a parameter sets that parameter. -/
theorem tbl_find {sub : XmlNode} {p : Parameter} :
    Parameter.tbl.find? (fun q => sub.name = q.name) = some p ↔ sub.name = p.name := by
  constructor
  · intro h
    simpa using List.find?_some h
  · intro h
    rw [h]
    cases p <;> decide

theorem parameter_texts {doc : XmlDoc} {c : HaConfigData} (h : interpretConfigFile getaddrinfo (.document doc) = .ok c)
    {p : Parameter} {sub : XmlNode} (hsub : sub ∈ doc.parameters) (hname : sub.name = p.name) :
    ∃ txt, sub.txt = some txt ∧ (strtol txt.chars).2 = [] := by
  obtain ⟨params, hparams, hchild⟩ := List.mem_flatMap.1 hsub
  rw [List.mem_filter, decide_eq_true_iff] at hparams
  obtain ⟨t, t', ht⟩ := settings_taken h hparams.1
  simp only [commonElement, hparams.2, String.reduceEq, if_false, if_true] at ht
  obtain ⟨u, u', hu⟩ := foldlM_mem ht hchild
  rw [parameterElement, tbl_find.2 hname] at hu
  cases htxt : sub.txt with
  | none => simp [htxt] at hu
  | some txt =>
    refine ⟨txt, rfl, ?_⟩
    by_contra hend
    simp [htxt, hend] at hu

/-- A parameter has the number of its last text, or its default. -/
theorem parameter_eq {doc : XmlDoc} {c : HaConfigData} (h : interpretConfigFile getaddrinfo (.document doc) = .ok c)
    (p : Parameter) :
    c.common.parameter p =
      (lastText doc.parameters p.name).elim p.defaultValue fun txt => BitVec.ofInt 32 (strtol txt.chars).1 := by
  have hfold : c.common.parameter = doc.parameters.foldl parameterTurn Parameter.defaultValue := by
    rw [foldlM_settings (·.parameter)
      (fun f sub => if sub.name = "parameters" then sub.children.foldl parameterTurn f else f)
      (fun _ _ _ => commonElement_parameter) (fun _ => rfl) h, XmlDoc.parameters, List.foldl_flatMap, List.foldl_filter]
    simp only [decide_eq_true_iff]
    rfl
  have htexts : ∀ sub ∈ doc.parameters, sub.name = p.name → ∃ txt, sub.txt = some txt ∧ (strtol txt.chars).2 = [] :=
    fun sub hsub hname => parameter_texts h hsub hname
  rw [hfold]
  generalize doc.parameters = subs at htexts ⊢
  induction subs using List.reverseRecOn with
  | nil => rfl
  | append_singleton subs sub ih =>
    rw [List.foldl_append, List.foldl_cons, List.foldl_nil, parameterTurn]
    have hrest := ih fun x hx => htexts x (List.mem_append_left _ hx)
    by_cases hn : sub.name = p.name
    · obtain ⟨txt, htxt, -⟩ := htexts sub (by simp) hn
      rw [lastText_append_pos hn, tbl_find.2 hn, htxt]
      exact Function.update_self ..
    · rw [lastText_append_neg hn, ← hrest]
      cases hq : Parameter.tbl.find? fun q => sub.name = q.name with
      | none => rfl
      | some q =>
        have hpq : p ≠ q := by
          rintro rfl
          exact hn (tbl_find.1 hq)
        cases sub.txt with
        | none => rfl
        | some txt => exact Function.update_of_ne hpq ..

theorem commonElement_port {c c' : HaConfigCommon} {sub : XmlNode} (h : commonElement getaddrinfo c sub = .ok c') :
    if sub.name = "UDPport" then
      ∃ txt, sub.txt = some txt ∧ (strtol txt.chars).2 = [] ∧ c'.udpPort = BitVec.ofInt 32 (strtol txt.chars).1
    else c'.udpPort = c.udpPort := by
  unfold commonElement at h
  by_cases hport : sub.name = "UDPport"
  · rw [if_pos hport]
    simp only [hport, String.reduceEq, if_false, if_true] at h
    cases htxt : sub.txt with
    | none => simp [htxt] at h
    | some txt =>
      simp only [htxt] at h
      split at h
      · cases h
      · rename_i hend
        cases h
        exact ⟨txt, rfl, not_not.1 (not_or.1 hend).1, rfl⟩
  · rw [if_neg hport]
    rw [if_neg hport] at h
    by_cases hhost : sub.name = "host"
    · simp only [hhost, String.reduceEq, if_false, if_true, walkHostConfig] at h
      split at h
      · cases h
      · cases hf : sub.children.foldlM (hostElement getaddrinfo) .cleared with
        | error ret => rw [hf] at h; cases h
        | ok info => rw [hf] at h; cases h; rfl
    · by_cases hparams : sub.name = "parameters"
      · simp only [hparams, String.reduceEq, if_false, if_true] at h
        refine foldlM_inv (fun d : HaConfigCommon => d.udpPort = c.udpPort) h rfl ?_
        intro x _ t t' ht hport
        unfold parameterElement at ht
        repeat' split at ht
        all_goals first | (cases ht; exact hport) | cases ht
      · rw [if_neg hhost, if_neg hparams] at h
        dsimp only at h
        repeat' split at h
        all_goals first | (cases h; rfl) | cases h

theorem port_texts {doc : XmlDoc} {c : HaConfigData} (h : interpretConfigFile getaddrinfo (.document doc) = .ok c)
    {sub : XmlNode} (hsub : sub ∈ doc.settings) (hname : sub.name = "UDPport") :
    ∃ txt, sub.txt = some txt ∧ (strtol txt.chars).2 = [] := by
  obtain ⟨t, t', ht⟩ := settings_taken h hsub
  have hstep := commonElement_port ht
  rw [if_pos hname] at hstep
  obtain ⟨txt, htxt, hend, -⟩ := hstep
  exact ⟨txt, htxt, hend⟩

/-- The port is that of the last text. -/
theorem port_eq {doc : XmlDoc} {c : HaConfigData} (h : interpretConfigFile getaddrinfo (.document doc) = .ok c) :
    c.common.udpPort =
      (lastText doc.settings "UDPport").elim 0 fun txt => BitVec.ofInt 32 (strtol txt.chars).1 := by
  have hfold := foldlM_settings (·.udpPort)
    (fun port sub => if sub.name = "UDPport" then sub.txt.elim port fun txt => BitVec.ofInt 32 (strtol txt.chars).1
      else port)
    (fun d sub d' hd => by
      have hstep := commonElement_port hd
      by_cases hn : sub.name = "UDPport"
      · rw [if_pos hn] at hstep ⊢
        obtain ⟨txt, htxt, -, hport⟩ := hstep
        rw [htxt]
        exact hport
      · rw [if_neg hn] at hstep ⊢
        exact hstep) (fun _ => rfl) h
  have htexts : ∀ sub ∈ doc.settings, sub.name = "UDPport" → ∃ txt, sub.txt = some txt ∧ (strtol txt.chars).2 = [] :=
    fun sub hsub hname => port_texts h hsub hname
  rw [hfold]
  generalize doc.settings = subs at htexts ⊢
  induction subs using List.reverseRecOn with
  | nil => rfl
  | append_singleton subs sub ih =>
    rw [List.foldl_append, List.foldl_cons, List.foldl_nil]
    by_cases hn : sub.name = "UDPport"
    · obtain ⟨txt, htxt, -⟩ := htexts sub (by simp) hn
      rw [lastText_append_pos hn, if_pos hn, htxt]
      rfl
    · rw [lastText_append_neg hn, if_neg hn]
      exact ih fun x hx => htexts x (List.mem_append_left _ hx)

/-! ## The whole configuration -/

/-- An accepted configuration is what its document says if and only if the document is well written. -/
theorem accepted_as_written_iff {doc : XmlDoc} {c : HaConfigData}
    (h : interpretConfigFile getaddrinfo (.document doc) = .ok c) : c.AsWritten doc ↔ doc.WellWritten := by
  have hparameter : ∀ (p : Parameter) (txt : CString), lastText doc.parameters p.name = some txt →
      (Holds txt (c.common.parameter p) ↔ FitsU32 txt) := by
    intro p txt hlast
    obtain ⟨sub, hsub, hname, htxt⟩ := mem_of_lastText hlast
    obtain ⟨txt', htxt', hend⟩ := parameter_texts h hsub hname
    obtain rfl := Option.some.inj (htxt.symm.trans htxt')
    rw [parameter_eq h p, hlast]
    exact holds_strtol_iff hend
  have hport : ∀ txt, lastText doc.settings "UDPport" = some txt → (Holds txt c.common.udpPort ↔ FitsU32 txt) := by
    intro txt hlast
    obtain ⟨sub, hsub, hname, htxt⟩ := mem_of_lastText hlast
    obtain ⟨txt', htxt', hend⟩ := port_texts h hsub hname
    obtain rfl := Option.some.inj (htxt.symm.trans htxt')
    rw [port_eq h, hlast]
    exact holds_strtol_iff hend
  constructor
  · rintro ⟨h1, h2, h3⟩
    exact ⟨(hosts_written_iff h).1 h1, fun p txt hlast => (hparameter p txt hlast).1 (h2 p txt hlast),
      fun txt hlast => (hport txt hlast).1 (h3 txt hlast)⟩
  · rintro ⟨h1, h2, h3⟩
    exact ⟨(hosts_written_iff h).2 h1, fun p txt hlast => (hparameter p txt hlast).2 (h2 p txt hlast),
      fun txt hlast => (hport txt hlast).2 (h3 txt hlast)⟩

end

/-! ## Two documents -/

/-- A HostID that is cut short. -/
def shortId : CString := ⟨"0f3ac6c2-2a5e".toList, by decide⟩

theorem poolDoc_settings (hosts : List (CString × CString)) (params : List XmlNode) (me : CString) :
    (poolDoc hosts params me).settings = poolSettings params ++ hosts.map poolHost := by
  simp [XmlDoc.settings, poolDoc, poolCommon, poolLocal]

theorem poolDoc_hosts (hosts : List (CString × CString)) (params : List XmlNode) (me : CString) :
    (poolDoc hosts params me).hosts = hosts.map poolHost := by
  have hself : (hosts.map poolHost).filter (fun sub => sub.name = "host") = hosts.map poolHost := by
    rw [List.filter_map]
    exact congrArg _ (List.filter_eq_self.2 fun _ _ => rfl)
  rw [XmlDoc.hosts, poolDoc_settings, List.filter_append, hself]
  simp [poolSettings, XmlNode.leaf]

theorem poolDoc_parameters (hosts : List (CString × CString)) (params : List XmlNode) (me : CString) :
    (poolDoc hosts params me).parameters = params := by
  have hnone : (hosts.map poolHost).filter (fun sub => sub.name = "parameters") = [] := by
    rw [List.filter_map, List.map_eq_nil_iff]
    exact List.filter_eq_nil_iff.2 fun _ _ => by simp [poolHost]
  rw [XmlDoc.parameters, poolDoc_settings, List.filter_append, hnone]
  simp [poolSettings, XmlNode.leaf]

/-- The well-written pool has what its document says. -/
theorem accepted_as_written_iff_pool :
    ∃ c, interpretConfigFile poolAddress (.document (poolDoc [firstHost, secondHost]
        [.leaf "HeartbeatTimeout" ⟨['6', '0'], by decide⟩] firstHost.1)) = .ok c ∧
      c.AsWritten (poolDoc [firstHost, secondHost]
        [.leaf "HeartbeatTimeout" ⟨['6', '0'], by decide⟩] firstHost.1) := by
  have haddr : ∀ host ∈ [firstHost, secondHost], ∃ addr, poolAddress host.2 = some addr ∧ addr ≠ .other :=
    fun host hhost => poolAddress_some host (by simpa using hhost)
  obtain ⟨c, hc⟩ := (poolDoc_lists [firstHost, secondHost] [.leaf "HeartbeatTimeout" ⟨['6', '0'], by decide⟩]
    firstHost.1).accepted (poolDoc_complete _ haddr (by simp [XmlNode.leaf]; decide)) (by decide) (by decide) (by decide)
  refine ⟨c, hc, (accepted_as_written_iff hc).2 ⟨?_, ?_, ?_⟩⟩
  · rw [poolDoc_hosts]
    rintro host hhost
    obtain ⟨pair, hpair, rfl⟩ := List.mem_map.1 hhost
    refine ⟨pair.1, by simp [lastText, poolHost, XmlNode.leaf], .inl ?_⟩
    rcases List.mem_pair.1 hpair with rfl | rfl <;> decide
  · rw [poolDoc_parameters]
    rintro p txt hlast
    obtain ⟨sub, hsub, -, htxt⟩ := mem_of_lastText hlast
    obtain rfl := List.mem_singleton.1 hsub
    obtain rfl := Option.some.inj htxt
    exact ⟨60, by decide, by decide, by decide⟩
  · rw [poolDoc_settings]
    rintro txt hlast
    obtain rfl := Option.some.inj (hlast : some (⟨"694".toList, by decide⟩ : CString) = some txt)
    exact ⟨694, by decide, by decide, by decide⟩

/-- A pool with a HostID that is cut short, a heartbeat timeout that is too large and a negative one for the
State-File. -/
def carelessDoc : XmlDoc :=
  poolDoc [firstHost, (shortId, secondHost.2)]
    [.leaf "HeartbeatTimeout" ⟨"4294967296".toList, by decide⟩, .leaf "StateFileTimeout" ⟨['-', '1'], by decide⟩] firstHost.1

/-- The careless pool is accepted, with a table, a heartbeat timeout and a State-File timeout that are not written. -/
theorem careless_pool_is_accepted :
    ∃ c, interpretConfigFile poolAddress (.document carelessDoc) = .ok c ∧
      (∃ id ∈ c.common.hostIds, ∀ txt ∈ carelessDoc.hostIdTexts, ValidId txt → id ≠ packedId txt) ∧
      c.common.parameter .heartbeatTimeout = 0 ∧ c.common.parameter .statefileTimeout = 0xffffffff ∧
      ¬c.AsWritten carelessDoc := by
  have haddr : ∀ host ∈ [firstHost, (shortId, secondHost.2)], ∃ addr, poolAddress host.2 = some addr ∧ addr ≠ .other := by
    rintro host hhost
    rcases List.mem_pair.1 hhost with rfl | rfl
    · exact poolAddress_some firstHost (.inl rfl)
    · exact poolAddress_some secondHost (.inr rfl)
  have hparams : ∀ sub ∈ [XmlNode.leaf "HeartbeatTimeout" ⟨"4294967296".toList, by decide⟩,
      .leaf "StateFileTimeout" ⟨['-', '1'], by decide⟩], ∃ txt, sub.txt = some txt ∧ (strtol txt.chars).2 = [] := by
    simp [XmlNode.leaf]
    decide
  have hcomplete := poolDoc_complete firstHost.1 haddr hparams
  obtain ⟨c, hc⟩ := (poolDoc_lists _ _ _).accepted_of_mem hcomplete (by decide) (by decide) (by decide)
  have hbad : ∃ id ∈ c.common.hostIds, ∀ txt ∈ carelessDoc.hostIdTexts, ValidId txt → id ≠ packedId txt := by
    refine ⟨(uuidStrcpy shortId).2, ?_, ?_⟩
    · rw [(hostIds_perm hc).mem_iff, poolDoc_hosts]
      decide
    · rintro txt - - heq
      exact nul_notMem_packedId txt (heq ▸ by decide)
  have hparameter := poolDoc_parameter hc
  refine ⟨c, hc, hbad, by rw [hparameter]; rfl, by rw [hparameter]; rfl, fun hw => ?_⟩
  obtain ⟨id, hid, hne⟩ := hbad
  obtain ⟨txt, htxt, hvalid, heq⟩ := hw.hosts id hid
  exact hne txt htxt hvalid heq

end Xha
