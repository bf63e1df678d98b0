/-
The addresses of the heartbeats (heartbeat.c). `hb_initialize0` fills `hbvar.sa_to` for the configured hosts, and
`send_hb` sends to each of the peers. It chooses the length of all these addresses once, by the slot at which the loop
over the hosts before has stopped: that is the one behind the last host, which is cleared (`send_hb_addresses_iff`).
-/
import Xha.Config.Accepted

namespace Xha

open Loop

/-! ## Socket addresses -/

/-- `sa_family_t`. -/
abbrev SaFamily := BitVec 16

def afInet : SaFamily := 2
def afInet6 : SaFamily := 10

/-- `sizeof(struct sockaddr_in)` and `sizeof(struct sockaddr_in6)`. -/
def sockaddrInSize : Nat := 16
def sockaddrIn6Size : Nat := 28

def SocketAddress.family : SocketAddress → SaFamily
  | unset => 0
  | inet _ => afInet
  | inet6 _ => afInet6

/-- The length of an address of its own family. -/
def SocketAddress.length : SocketAddress → Nat
  | unset => 0
  | inet _ => sockaddrInSize
  | inet6 _ => sockaddrIn6Size

/-- The length that `send_hb` takes for a family. -/
def destLen (family : SaFamily) : Nat := if family = afInet then sockaddrInSize else sockaddrIn6Size

/-- `htons`: the number as 16 bits, the other byte first. -/
def htons (port : MtcU32) : BitVec 16 :=
  let bits := port.setWidth 16
  bits <<< 8 ||| bits >>> 8

/-- A slot of `hbvar.sa_to`. -/
structure SaTo where
  address : SocketAddress
  port : BitVec 16
  deriving DecidableEq

/-- `hbvar` is static. -/
def SaTo.cleared : SaTo := ⟨.unset, 0⟩

def mtcErrorHbSocket : MtcStatus := 1701

/-! ## `hb_initialize0` -/

/-- The turn of the loop that fills `hbvar.sa_to`. -/
def fillSaTo (c : HaConfigData) (saTo : Nat → SaTo) (index : Nat) : Except MtcStatus (Nat → SaTo) :=
  match (c.common.hostInfo index).sockAddress with
  | .unset => .error mtcErrorHbSocket
  | .inet addr => .ok (Function.update saTo index ⟨.inet addr, htons c.common.udpPort⟩)
  | .inet6 addr => .ok (Function.update saTo index ⟨.inet6 addr, htons c.common.udpPort⟩)

/-- `hb_initialize0` once the common objects are open: the socket is bound, or not, and the addresses are filled in. -/
def hbInitialize0 (bound : Bool) (c : HaConfigData) : Except MtcStatus (Nat → SaTo) :=
  match (c.common.hostInfo c.localConfig.localhostIndex.toNat).sockAddress with
  | .unset => .error mtcErrorHbSocket
  | _ => if bound then (List.range c.common.hostnum).foldlM (fillSaTo c) fun _ => .cleared else .error mtcErrorHbSocket

/-! ## `send_hb` -/

/-- A sending daemon: whether it sends at all, the fist points, and the times of the packet. Behind the array there is
other memory, which is read as a family. -/
structure HbSender where
  config : HaConfigData
  saTo : Nat → SaTo
  enableHbSend : Bool
  isolated : Bool
  lostPacket : Bool
  now : MtcClock
  timeLastHb : Nat → MtcClock
  timeLastSf : Nat → MtcClock
  familyBehind : SaFamily

/-- What `send_hb` does with `hbvar.sa_to`: it looks at a slot, and it sends to the address of one. -/
inductive SendEvent
  | slot (index : Nat)
  | sendto (index : Nat) (address : SaTo) (destLen : Nat)
  deriving DecidableEq

/-- `for (index = 0; _is_configured_host(index); index++)`: what its body yields, and where `index` stops. -/
def overHosts {α : Type} (hostnum : Nat) (body : Nat → List α) : List α × Nat :=
  ((List.range hostnum).flatMap body, hostnum)

namespace HbSender

variable (d : HbSender)

def hostnum : Nat := d.config.common.hostnum

/-- `_my_index`. -/
def myIndex : Nat := d.config.localConfig.localhostIndex.toNat

/-- `hbvar.sa_to[index].sa.sa_family`. -/
def saFamily (index : Nat) : SaFamily := if index < maxHostNum then (d.saTo index).address.family else d.familyBehind

/-- `send_hb`: the times of the packet, and what it does with the addresses. -/
def sendHb : List (BitVec 32 × BitVec 32) × List SendEvent :=
  if d.enableHbSend = false then ([], [])
  else
    let (times, index) := overHosts d.hostnum fun index =>
      [(timeSince d.now (d.timeLastHb index), timeSince d.now (d.timeLastSf index))]
    if d.isolated = false ∧ d.lostPacket = false then
      let len := destLen (d.saFamily index)
      let (sent, _) := overHosts d.hostnum fun i =>
        if i ≠ d.myIndex then [SendEvent.slot i, SendEvent.sendto i (d.saTo i) len] else []
      (times, SendEvent.slot index :: sent)
    else (times, [])

/-- The call gets as far as sending. -/
def Sends : Prop := d.enableHbSend = true ∧ d.isolated = false ∧ d.lostPacket = false

/-- The call only looks at the slots of configured hosts. -/
def InRange : Prop := ∀ index, SendEvent.slot index ∈ d.sendHb.2 → index < d.hostnum

/-- Each address is passed with the length of its own family. -/
def OwnLength : Prop := ∀ index address len, SendEvent.sendto index address len ∈ d.sendHb.2 →
  len = (d.config.common.hostInfo index).sockAddress.length

variable {d}

theorem mem_sendHb {e : SendEvent} :
    e ∈ d.sendHb.2 ↔ d.Sends ∧ (e = .slot d.hostnum ∨ ∃ i < d.hostnum, i ≠ d.myIndex ∧
      (e = .slot i ∨ e = .sendto i (d.saTo i) (destLen (d.saFamily d.hostnum)))) := by
  unfold sendHb Sends
  cases d.enableHbSend with
  | false => simp
  | true =>
    rw [if_neg Bool.true_eq_false_eq_False]
    simp only [overHosts, true_and]
    by_cases hfist : d.isolated = false ∧ d.lostPacket = false
    · rw [if_pos hfist, and_iff_right hfist, List.mem_cons, List.mem_flatMap]
      refine or_congr_right (exists_congr fun i => ?_)
      rw [List.mem_range]
      refine and_congr_right fun _ => ?_
      by_cases hi : i = d.myIndex <;> simp [hi]
    · rw [if_neg hfist]
      exact iff_of_false (List.not_mem_nil) fun h => hfist h.1

/-! ## The table -/

/-- The table that the loop leaves: the addresses of the hosts, all of them of a family, and cleared slots. -/
theorem fillSaTo_range {c : HaConfigData} {n : Nat} {saTo : Nat → SaTo}
    (h : (List.range n).foldlM (fillSaTo c) (fun _ => SaTo.cleared) = .ok saTo) :
    (∀ i < n, (c.common.hostInfo i).sockAddress ≠ .unset ∧
      saTo i = ⟨(c.common.hostInfo i).sockAddress, htons c.common.udpPort⟩) ∧ ∀ i, n ≤ i → saTo i = .cleared := by
  induction n generalizing saTo with
  | zero =>
    cases h
    exact ⟨fun i hi => absurd hi (Nat.not_lt_zero i), fun _ _ => rfl⟩
  | succ n ih =>
    rw [List.range_succ, List.foldlM_append] at h
    cases hf : (List.range n).foldlM (fillSaTo c) (fun _ => SaTo.cleared) with
    | error ret => rw [hf] at h; cases h
    | ok before =>
      obtain ⟨hfilled, hcleared⟩ := ih hf
      rw [hf] at h
      obtain ⟨hset, hupdate⟩ : (c.common.hostInfo n).sockAddress ≠ .unset ∧
          saTo = Function.update before n ⟨(c.common.hostInfo n).sockAddress, htons c.common.udpPort⟩ := by
        obtain ⟨t, ht, hnil⟩ := foldlM_cons_ok.1 h
        cases hnil
        unfold fillSaTo at ht
        cases haddr : (c.common.hostInfo n).sockAddress with
        | unset => rw [haddr] at ht; cases ht
        | inet addr => rw [haddr] at ht; cases ht; exact ⟨nofun, rfl⟩
        | inet6 addr => rw [haddr] at ht; cases ht; exact ⟨nofun, rfl⟩
      subst hupdate
      constructor
      · rintro i hi
        rcases Nat.lt_succ_iff_lt_or_eq.1 hi with hlt | rfl
        · rw [Function.update_of_ne (by omega)]
          exact hfilled i hlt
        · exact ⟨hset, Function.update_self ..⟩
      · rintro i hi
        rw [Function.update_of_ne (by omega)]
        exact hcleared i (by omega)

theorem hbInitialize0_saTo {bound : Bool} {c : HaConfigData} {saTo : Nat → SaTo} (h : hbInitialize0 bound c = .ok saTo) :
    (∀ i < c.common.hostnum, (c.common.hostInfo i).sockAddress ≠ .unset ∧
      saTo i = ⟨(c.common.hostInfo i).sockAddress, htons c.common.udpPort⟩) ∧
      ∀ i, c.common.hostnum ≤ i → saTo i = .cleared := by
  unfold hbInitialize0 at h
  split at h
  · cases h
  · cases bound with
    | false => cases h
    | true => exact fillSaTo_range h

/-- The length for a family is that of an address exactly when both are IPv4, or neither. -/
theorem destLen_eq_iff {family : SaFamily} {address : SocketAddress} (hset : address ≠ .unset) :
    destLen family = address.length ↔ (family = afInet ↔ address.family = afInet) := by
  have hne : sockaddrInSize ≠ sockaddrIn6Size := by decide
  have hfamily : afInet6 ≠ afInet := by decide
  unfold destLen
  cases address with
  | unset => exact absurd rfl hset
  | inet addr => by_cases hf : family = afInet <;> simp [hf, SocketAddress.length, SocketAddress.family, hne.symm]
  | inet6 addr => by_cases hf : family = afInet <;> simp [hf, SocketAddress.length, SocketAddress.family, hne, hfamily]

/-! ## The calls -/

/-- A call that sends looks at the slot behind the last host. -/
theorem inRange_iff : d.InRange ↔ ¬d.Sends := by
  constructor
  · rintro hrange hsends
    exact Nat.lt_irrefl _ (hrange d.hostnum (mem_sendHb.2 ⟨hsends, .inl rfl⟩))
  · rintro hsends index hmem
    exact absurd (mem_sendHb.1 hmem).1 hsends

/-- All peers get the length of the family that is found there. -/
theorem ownLength_iff {bound : Bool} (h : hbInitialize0 bound d.config = .ok d.saTo) :
    d.OwnLength ↔ ¬d.Sends ∨ ∀ i < d.hostnum, i ≠ d.myIndex →
      (d.saFamily d.hostnum = afInet ↔ (d.config.common.hostInfo i).sockAddress.family = afInet) := by
  have hset := (hbInitialize0_saTo h).1
  constructor
  · rintro hlength
    by_cases hsends : d.Sends
    · right
      rintro i hi hne
      rw [← destLen_eq_iff (hset i hi).1]
      exact hlength i (d.saTo i) _ (mem_sendHb.2 ⟨hsends, .inr ⟨i, hi, hne, .inr rfl⟩⟩)
    · exact .inl hsends
  · rintro hcond index address len hmem
    obtain ⟨hsends, hevent | ⟨i, hi, hne, hevent | hevent⟩⟩ := mem_sendHb.1 hmem
    · cases hevent
    · cases hevent
    · cases hevent
      exact (destLen_eq_iff (hset index hi).1).2 (hcond.resolve_left (not_not_intro hsends) index hi hne)

/-- A call does what it should exactly when it does not get as far as sending. The lengths alone are also right when
all peers have IPv6 addresses, in a pool of fewer hosts than slots; with all slots in use, when either all or none of them
have IPv4 addresses, as the memory behind the array happens to say. -/
theorem send_hb_addresses_iff {bound : Bool} (h : hbInitialize0 bound d.config = .ok d.saTo) :
    (d.InRange ∧ d.OwnLength ↔ ¬d.Sends) ∧
      (d.hostnum < maxHostNum → (d.OwnLength ↔ ¬d.Sends ∨ ∀ i < d.hostnum, i ≠ d.myIndex →
        (d.config.common.hostInfo i).sockAddress.family = afInet6)) ∧
      (d.hostnum = maxHostNum → (d.OwnLength ↔ ¬d.Sends ∨ ∀ i < d.hostnum, i ≠ d.myIndex →
        (d.familyBehind = afInet ↔ (d.config.common.hostInfo i).sockAddress.family = afInet))) := by
  obtain ⟨hset, hcleared⟩ := hbInitialize0_saTo h
  refine ⟨?_, ?_, ?_⟩
  · constructor
    · exact fun hall => inRange_iff.1 hall.1
    · exact fun hsends => ⟨inRange_iff.2 hsends, (ownLength_iff h).2 (.inl hsends)⟩
  · intro hlt
    rw [ownLength_iff h]
    -- the slot behind the last host is cleared, and counts as IPv6
    have hfamily : d.saFamily d.hostnum ≠ afInet := by
      rw [saFamily, if_pos hlt, hcleared d.hostnum (Nat.le_refl d.config.common.hostnum)]
      decide
    refine or_congr_right (forall_congr' fun i => forall_congr' fun hi => forall_congr' fun _ => ?_)
    have haddr := (hset i hi).1
    cases hsock : (d.config.common.hostInfo i).sockAddress with
    | unset => exact absurd hsock haddr
    | inet addr => exact iff_of_false (fun hiff => hfamily (hiff.2 rfl)) (by simp [SocketAddress.family, afInet, afInet6])
    | inet6 addr => exact iff_of_true (iff_of_false hfamily (by simp [SocketAddress.family, afInet, afInet6])) rfl
  · intro heq
    rw [ownLength_iff h, saFamily, if_neg (by omega)]

end HbSender

/-! ## A pool with IPv4 addresses -/

section

variable {getaddrinfo : CString → Option AddrInfo}

/-- What holds of the hosts that are added holds of those in the table. -/
theorem walkCommonConfig_host {c c' : HaConfigCommon} {cur : XmlNode} {P : HaConfigHostInfo → Prop}
    (h : walkCommonConfig getaddrinfo c cur = .ok c') (h0 : ∀ info ∈ c.host, P info)
    (hadd : ∀ sub ∈ cur.named "host", ∀ info, sub.children.foldlM (hostElement getaddrinfo) .cleared = .ok info → P info) :
    ∀ info ∈ c'.host, P info := by
  obtain ⟨d, hf, rfl⟩ := walkCommonConfig_ok h
  have hall : ∀ info ∈ d.host, P info := by
    refine foldlM_inv (fun d : HaConfigCommon => ∀ info ∈ d.host, P info) hf h0 fun sub hsub t t' ht hold => ?_
    have hstep := commonElement_host ht
    split at hstep
    · rename_i hname
      obtain ⟨info, hinfo, hhost⟩ := hstep
      rintro x hx
      rw [hhost, List.mem_append, List.mem_singleton] at hx
      rcases hx with hx | rfl
      · exact hold x hx
      · exact hadd sub (mem_named.mpr ⟨hsub, hname⟩) x hinfo
    · rw [hstep]
      exact hold
  rintro info hinfo
  exact hall info (List.mem_mergeSort.1 hinfo)

end

/-- The addresses of the pool are IPv4. -/
theorem poolDoc_inet {hosts : List (CString × CString)} {params : List XmlNode} {me : CString} {c : HaConfigData}
    (h : interpretConfigFile poolAddress (.document (poolDoc hosts params me)) = .ok c) :
    ∀ i < c.common.hostnum, ∃ addr, (c.common.hostInfo i).sockAddress = .inet addr := by
  have hall : ∀ info ∈ c.common.host, ∃ addr, info.sockAddress = .inet addr := by
    refine walkCommonConfig_host ((poolDoc_lists hosts params me).walked h).1 nofun ?_
    rw [poolCommon_named]
    rintro sub hsub info hinfo
    obtain ⟨host, -, rfl⟩ : ∃ host ∈ hosts, poolHost host = sub := by
      simpa [poolSettings, XmlNode.leaf] using hsub
    obtain ⟨first, hfirst, hrest⟩ := foldlM_cons_ok.1 hinfo
    obtain ⟨last, hlast, hnil⟩ := foldlM_cons_ok.1 hrest
    cases hnil
    simp only [hostElement, XmlNode.leaf, String.reduceEq, if_false, if_true] at hlast
    unfold poolAddress at hlast
    split_ifs at hlast <;> cases hlast <;> exact ⟨_, rfl⟩
  rintro i hi
  have hlt : i < c.common.host.length := hi
  rw [HaConfigCommon.hostInfo, List.getD_eq_getElem?_getD, List.getElem?_eq_getElem hlt]
  exact hall _ (List.getElem_mem hlt)

/-- The heartbeat of such a pool is set up once the socket is bound. -/
theorem poolDoc_hbInitialize0 {hosts : List (CString × CString)} {params : List XmlNode} {me : CString} {c : HaConfigData}
    (h : interpretConfigFile poolAddress (.document (poolDoc hosts params me)) = .ok c) :
    ∃ saTo, hbInitialize0 true c = .ok saTo := by
  have hinet := poolDoc_inet h
  obtain ⟨addr, haddr⟩ := hinet _ (interpretConfigFile_wellFormed h).localhost
  obtain ⟨saTo, hsaTo, -⟩ := foldlM_total (f := fillSaTo c) (l := List.range c.common.hostnum) (s := fun _ => SaTo.cleared)
    (fun rest _ => ∀ i ∈ rest, i < c.common.hostnum) (fun i hi => List.mem_range.1 hi) fun i rest saTo hrest => by
      obtain ⟨addr, haddr⟩ := hinet i (hrest i List.mem_cons_self)
      refine ⟨Function.update saTo i ⟨.inet addr, htons c.common.udpPort⟩, ?_, fun j hj => hrest j (List.mem_cons_of_mem _ hj)⟩
      rw [fillSaTo, haddr]
  refine ⟨saTo, ?_⟩
  rw [hbInitialize0, haddr]
  exact hsaTo

/-- A pool of two hosts whose heartbeats are set up. -/
theorem pair_sends : ∃ c saTo, interpretConfigFile poolAddress
    (.document (poolDoc [firstHost, secondHost] [] firstHost.1)) = .ok c ∧ c.common.hostnum = 2 ∧
      hbInitialize0 true c = .ok saTo := by
  have hlists := poolDoc_lists [firstHost, secondHost] [] firstHost.1
  have haddr : ∀ host ∈ [firstHost, secondHost], ∃ addr, poolAddress host.2 = some addr ∧ addr ≠ .other :=
    fun host hhost => poolAddress_some host (by simpa using hhost)
  obtain ⟨c, hc⟩ := hlists.accepted (poolDoc_complete _ haddr nofun) (by decide) (by decide) (by decide)
  obtain ⟨hperm, -⟩ := hlists.table (by decide) (by decide) hc
  obtain ⟨saTo, hsaTo⟩ := poolDoc_hbInitialize0 hc
  refine ⟨c, saTo, hc, ?_, hsaTo⟩
  rw [← HaConfigCommon.length_hostIds]
  exact hperm.length_eq

/-- A host that is isolated does nothing wrong. -/
theorem send_hb_addresses_iff_isolated : ∃ d : HbSender, hbInitialize0 true d.config = .ok d.saTo ∧
    d.enableHbSend = true ∧ d.InRange ∧ d.OwnLength := by
  obtain ⟨c, saTo, -, -, hsaTo⟩ := pair_sends
  let d : HbSender := ⟨c, saTo, true, true, false, 0, fun _ => -1, fun _ => -1, 0⟩
  obtain ⟨hrange, hlength⟩ := (HbSender.send_hb_addresses_iff (d := d) hsaTo).1.2 fun hsends => by cases hsends.2.1
  exact ⟨d, hsaTo, rfl, hrange, hlength⟩

/-- The peer gets its heartbeat with an IPv4 address and the length of an IPv6 one, for which the slot behind the two
hosts has been looked at. -/
theorem ipv4_peer_gets_ipv6_length : ∃ d : HbSender,
    interpretConfigFile poolAddress (.document (poolDoc [firstHost, secondHost] [] firstHost.1)) = .ok d.config ∧
      hbInitialize0 true d.config = .ok d.saTo ∧ d.hostnum = 2 ∧ SendEvent.slot 2 ∈ d.sendHb.2 ∧
      ∃ i < 2, ∃ addr port, SendEvent.sendto i ⟨.inet addr, port⟩ sockaddrIn6Size ∈ d.sendHb.2 := by
  obtain ⟨c, saTo, hc, hnum, hsaTo⟩ := pair_sends
  let d : HbSender := ⟨c, saTo, true, false, false, 0, fun _ => -1, fun _ => -1, 0⟩
  have hsends : d.Sends := ⟨rfl, rfl, rfl⟩
  have hhosts : d.hostnum = 2 := hnum
  obtain ⟨hset, hcleared⟩ := HbSender.hbInitialize0_saTo hsaTo
  obtain ⟨i, hi, hne⟩ : ∃ i < d.hostnum, i ≠ d.myIndex := by
    by_cases hme : d.myIndex = 0
    · exact ⟨1, by omega, by omega⟩
    · exact ⟨0, by omega, by omega⟩
  obtain ⟨addr, haddr⟩ := poolDoc_inet hc i hi
  have hlen : destLen (d.saFamily d.hostnum) = sockaddrIn6Size := by
    rw [HbSender.saFamily, if_pos (by rw [hhosts]; decide)]
    exact congrArg (fun slot : SaTo => destLen slot.address.family) (hcleared _ le_rfl)
  refine ⟨d, hc, hsaTo, hhosts, ?_, i, hhosts ▸ hi, addr, htons c.common.udpPort, ?_⟩
  · exact HbSender.mem_sendHb.2 ⟨hsends, .inl (by rw [hhosts])⟩
  · refine HbSender.mem_sendHb.2 ⟨hsends, .inr ⟨i, hi, hne, .inr ?_⟩⟩
    rw [hlen, ← haddr]
    exact congrArg (SendEvent.sendto i · sockaddrIn6Size) (hset i hi).2.symm

end Xha
