/-
That the answers come to those who asked (calldaemon.c, sc_sv.c): however the bytes are cut up and whatever other programs
write to the sockets, a call that succeeds has the response of a service function that was run for its own request
(`script_call_returns`), and a service function is run for valid requests of its socket only, one at a time
(`service_runs_one_at_a_time`). Each direction of a connection is a pipe: what has been read, what is on its way and what
is left to write make up the message (`Carries`), and the buffer of a thread has what it has read since it was cleared.
-/
import Xha.Lib.Pipe
import Xha.Script.Protocol

namespace Xha

open Transition Pipe Region

/-! ## One connection -/

def ScriptCall.message (call : ScriptCall) : List Byte := scriptHeadLayout.encode call.head ++ call.reqBody

/-- What the script has still to write. -/
def clientRest (call : ScriptCall) : ClientPc → Option (List Byte)
  | .writingHead rest => some (rest ++ call.reqBody)
  | .writingBody rest => some rest
  | .readingHead _ | .readingBody .. => some []
  | .returned .. => none

/-- What the script has read. -/
def clientGot : ClientPc → Option (List Byte)
  | .writingHead _ | .writingBody _ => some []
  | .readingHead got => some got
  | .readingBody head got => some (scriptHeadLayout.encode head ++ got)
  | .returned .. => none

/-- What the service has read. -/
def serverGot : ServerPc → Option (List Byte)
  | .queued => some []
  | .head got => some got
  | .body head got => some (scriptHeadLayout.encode head ++ got)
  | .calling .. | .writing .. | .closed => none

/-- What the service has still to write. -/
def serverRest : ServerPc → Option (List Byte)
  | .writing _ rest => some rest
  | .queued | .head _ | .body .. | .calling .. | .closed => none

/-- The response of a connection; there is none before a service function has been run. -/
def ScriptConnection.response (conn : ScriptConnection) : List Byte := (conn.answered.map (·.message)).getD []

/-- No service function has been run. -/
def ServerPc.early : ServerPc → Bool
  | .queued | .head _ | .body .. | .calling .. => true
  | .writing .. | .closed => false

/-- The thread of the socket is at the connection. -/
def ServerPc.atWork : ServerPc → Bool
  | .head _ | .body .. | .calling .. | .writing .. => true
  | .queued | .closed => false

/-- A request body with zeros behind it. -/
def paddedBody (got : List Byte) : List Byte := got ++ List.replicate (requestBodySize - got.length) 0

/-- In the buffer is what has been read of the body since it was cleared. -/
def RequestRead (request : List Byte) : ServerPc → Prop
  | .head _ => request = clearedRequest
  | .body _ got => request = paddedBody got
  | .queued | .calling .. | .writing .. | .closed => True

section

variable {Returns : ScriptType → MtcU32 → List Byte → ServiceReturn → Prop} {conn conn' : ScriptConnection} {call : ScriptCall}
  {pc pc' : ClientPc} {server server' : ServerPc} {got rest : List Byte} {head : ScriptDataHead} {n : Nat}

/-- At the service: a function is run once, for a valid head that its thread has read, on a body of the length it gives. -/
structure ServiceInv (Returns : ScriptType → MtcU32 → List Byte → ServiceReturn → Prop) (conn : ScriptConnection) : Prop where
  early : conn.server.early = true → conn.answered = none
  writing : ∀ a rest, conn.server = .writing a rest → conn.answered = some a
  returns : ∀ a ∈ conn.answered, Returns a.type a.reqLen a.reqBody a.ret
  body : ∀ head got, conn.server = .body head got → checkHeadValid head = .success
  calling : ∀ type head body, conn.server = .calling type head body → checkHeadValid head = .success ∧
    serviceFunc conn.socket head.type.toNat = some type ∧ ∃ got, got.length = head.length.toNat ∧ body = paddedBody got

/-- The connection of a call: its request is on its way, then that of the function run for it, then the response. -/
structure CallInv (call : ScriptCall) (pc : ClientPc) (conn : ScriptConnection) : Prop where
  up : ∀ got ∈ serverGot conn.server, Carries call.message got conn.up (clientRest call pc)
  down : ∀ got ∈ clientGot pc, Carries conn.response got conn.down (serverRest conn.server)
  calling : ∀ type head body, conn.server = .calling type head body →
    type = call.type ∧ head.length = call.reqLen ∧ body = paddedBody call.reqBody
  request : ∀ a ∈ conn.answered, a.type = call.type ∧ a.reqLen = call.reqLen ∧ a.reqBody = paddedBody call.reqBody
  fits : ∀ head got, pc = .readingBody head got → head.length ≤ call.resLen
  success : ∀ len bytes, pc = .returned .success len bytes → ∃ a ∈ conn.answered,
    a.ret.status = 0 ∧ len = a.ret.len ∧ bytes = a.ret.body.take a.ret.len.toNat ∧ a.ret.len ≤ call.resLen
  improper : ∀ len bytes, pc = .returned .improperData len bytes → ∃ a ∈ conn.answered,
    a.ret.status = 0 ∧ len = a.ret.len ∧ call.resLen < a.ret.len

/-- Where nothing is read the buffer does not matter. -/
theorem RequestRead.of_idle {request request' : List Byte} (h : RequestRead request server) (hidle : server.atWork = false) :
    RequestRead request' server := by
  cases server with
  | queued | closed => exact h
  | head | body | calling | writing => cases hidle

/-! ## Requests -/

theorem ScriptType.number_eq (type : ScriptType) : scriptTypes[type.number.toNat]? = some type := by
  cases type <;> rfl

theorem ScriptCall.reqLen_toNat (call : ScriptCall) : call.reqLen.toNat = call.reqBody.length :=
  Nat.mod_eq_of_lt (lt_of_le_of_lt call.length_le (by decide))

/-- A request head that the service has read is the one the script wrote. -/
theorem scriptHead_eq {message got buf : List Byte} {written : ScriptDataHead} {rest : Option (List Byte)}
    (h : Carries (scriptHeadLayout.encode written ++ message) (scriptHeadLayout.encode head ++ got) buf rest) :
    head = written ∧ Carries message got buf rest := by
  obtain ⟨tail, hmessage, htail⟩ := h
  rw [List.append_assoc, List.append_assoc] at hmessage
  obtain ⟨hhead, hrest⟩ := List.append_inj hmessage
    ((scriptHeadLayout.length_encode head).trans (scriptHeadLayout.length_encode written).symm)
  refine ⟨?_, tail, by rw [List.append_assoc]; exact hrest, htail⟩
  rw [← scriptHeadLayout.decode_encode head, hhead, scriptHeadLayout.decode_encode]

theorem serviceFunc_number {socket : ScriptSocket} {type type' : ScriptType}
    (h : serviceFunc socket type.number.toNat = some type') : type' = type := by
  rw [serviceFunc, type.number_eq, Option.filter_some] at h
  split at h
  · exact (Option.some.inj h).symm
  · cases h

/-! ## Responses -/

theorem ScriptConnection.response_of {a : ScriptAnswer} (ha : conn.answered = some a) : conn.response = a.message := by
  rw [response, ha]
  rfl

/-- A response that has a beginning is that of a service function that succeeded. -/
theorem ScriptConnection.exists_answer (hne : conn.response ≠ []) : ∃ a ∈ conn.answered, a.ret.status = 0 ∧
    conn.response = scriptHeadLayout.encode a.head ++ a.ret.body.take a.ret.len.toNat := by
  cases ha : conn.answered with
  | none =>
    rw [response, ha] at hne
    exact absurd rfl hne
  | some a =>
    rw [response_of ha, ScriptAnswer.message] at hne ⊢
    by_cases hstatus : a.ret.status = 0
    · rw [if_pos hstatus]
      exact ⟨a, rfl, hstatus, rfl⟩
    · rw [if_neg hstatus] at hne
      exact absurd rfl hne

/-- The response head that the script has read is that of the answer. -/
theorem response_head {buf : List Byte} {rest : Option (List Byte)} (h : Carries conn.response got buf rest)
    (hlength : got.length = scriptHeadLayout.size) :
    ∃ a ∈ conn.answered, a.ret.status = 0 ∧ scriptHeadLayout.decode got = a.head ∧ got = scriptHeadLayout.encode a.head := by
  have hne : conn.response ≠ [] := by
    intro hnil
    have hle := h.length_le
    rw [hnil, hlength] at hle
    exact absurd hle (by decide)
  obtain ⟨a, ha, hstatus, hresponse⟩ := ScriptConnection.exists_answer hne
  rw [hresponse] at h
  have hgot := h.got_append (hlength.trans (scriptHeadLayout.length_encode a.head).symm)
  exact ⟨a, ha, hstatus, by rw [hgot, scriptHeadLayout.decode_encode], hgot⟩

theorem response_body {buf : List Byte} {rest : Option (List Byte)}
    (h : Carries conn.response (scriptHeadLayout.encode head ++ got) buf rest) :
    ∃ a ∈ conn.answered, a.ret.status = 0 ∧ head = a.head ∧ Carries (a.ret.body.take a.ret.len.toNat) got buf rest := by
  have hne : conn.response ≠ [] := by
    intro hnil
    have hle := h.length_le
    rw [hnil, List.length_append, scriptHeadLayout.length_encode] at hle
    exact absurd ((Nat.le_add_right _ _).trans hle) (by decide)
  obtain ⟨a, ha, hstatus, hresponse⟩ := ScriptConnection.exists_answer hne
  rw [hresponse] at h
  obtain ⟨hhead, hcarries⟩ := scriptHead_eq h
  exact ⟨a, ha, hstatus, hhead, hcarries⟩

theorem ServiceReturn.length_take (ret : ServiceReturn) : (ret.body.take ret.len.toNat).length = ret.len.toNat := by
  rw [List.length_take_of_le]
  rw [ret.length_body]
  exact ret.len_le

/-! ## Steps of the script -/

/-- The service has done nothing. -/
structure SameService (conn conn' : ScriptConnection) : Prop where
  socket : conn'.socket = conn.socket
  server : conn'.server = conn.server
  answered : conn'.answered = conn.answered

theorem SameService.service (h : SameService conn conn') (hinv : ServiceInv Returns conn) : ServiceInv Returns conn' := by
  obtain ⟨hsocket, hserver, hanswered⟩ := h
  constructor
  · rw [hserver, hanswered]
    exact hinv.early
  · rw [hserver, hanswered]
    exact hinv.writing
  · rw [hanswered]
    exact hinv.returns
  · rw [hserver]
    exact hinv.body
  · rw [hserver, hsocket]
    exact hinv.calling

theorem SameService.response (h : SameService conn conn') : conn'.response = conn.response := by
  rw [ScriptConnection.response, h.answered]
  rfl

theorem CallInv.client (hinv : CallInv call pc conn) (hsame : SameService conn conn')
    (hup : ∀ got ∈ serverGot conn.server, Carries call.message got conn'.up (clientRest call pc'))
    (hdown : ∀ got ∈ clientGot pc', Carries conn.response got conn'.down (serverRest conn.server))
    (hfits : ∀ head got, pc' = .readingBody head got → head.length ≤ call.resLen)
    (hsuccess : ∀ len bytes, pc' = .returned .success len bytes → ∃ a ∈ conn.answered,
      a.ret.status = 0 ∧ len = a.ret.len ∧ bytes = a.ret.body.take a.ret.len.toNat ∧ a.ret.len ≤ call.resLen)
    (himproper : ∀ len bytes, pc' = .returned .improperData len bytes → ∃ a ∈ conn.answered,
      a.ret.status = 0 ∧ len = a.ret.len ∧ call.resLen < a.ret.len) : CallInv call pc' conn' := by
  refine ⟨?_, ?_, ?_, ?_, hfits, ?_, ?_⟩
  · rw [hsame.server]
    exact hup
  · rw [hsame.server, hsame.response]
    exact hdown
  · rw [hsame.server]
    exact hinv.calling
  · rw [hsame.answered]
    exact hinv.request
  · rw [hsame.answered]
    exact hsuccess
  · rw [hsame.answered]
    exact himproper

theorem takes_spec {there asked : Nat} (h : takes n there asked = true) : n ≤ there := by
  unfold takes at h
  simp only [Bool.and_eq_true, decide_eq_true_eq] at h
  exact h.1.2

theorem CallInv.step {a : ClientAction} (hinv : CallInv call pc conn) (h : clientNext conn call pc a = some conn') :
    SameService conn conn' ∧ ∃ pc', conn'.caller = some (call, pc') ∧ CallInv call pc' conn' := by
  cases pc with
  | writingHead rest =>
    cases a with
    | write n =>
      simp only [clientNext, Option.ite_none_right_eq_some, Option.some.injEq] at h
      obtain ⟨htakes, rfl⟩ := h
      have hn := takes_spec htakes
      have hsame : SameService conn { conn with
        up := conn.up ++ rest.take n, caller := some (call, .writingHead (rest.drop n)) } := ⟨rfl, rfl, rfl⟩
      refine ⟨hsame, _, rfl, hinv.client hsame (fun got hgot => ?_) hinv.down nofun nofun nofun⟩
      have hwritten := (hinv.up got hgot).write n
      rw [List.take_append_of_le_length hn, List.drop_append_of_le_length hn] at hwritten
      exact hwritten
    | proceed =>
      cases rest with
      | nil =>
        cases h
        have hsame : SameService conn { conn with caller := some (call, .writingBody call.reqBody) } := ⟨rfl, rfl, rfl⟩
        exact ⟨hsame, _, rfl, hinv.client hsame hinv.up hinv.down nofun nofun nofun⟩
      | cons => cases h
    | fail =>
      cases h
      have hsame : SameService conn { conn with
        clientClosed := true, caller := some (call, .returned .writeError call.resLen []) } := ⟨rfl, rfl, rfl⟩
      exact ⟨hsame, _, rfl, hinv.client hsame (fun got hgot => (hinv.up got hgot).gone) nofun nofun nofun nofun⟩
    | read => cases h
  | writingBody rest =>
    cases a with
    | write n =>
      simp only [clientNext, Option.ite_none_right_eq_some, Option.some.injEq] at h
      obtain ⟨-, rfl⟩ := h
      have hsame : SameService conn { conn with
        up := conn.up ++ rest.take n, caller := some (call, .writingBody (rest.drop n)) } := ⟨rfl, rfl, rfl⟩
      exact ⟨hsame, _, rfl, hinv.client hsame (fun got hgot => (hinv.up got hgot).write n) hinv.down nofun nofun nofun⟩
    | proceed =>
      cases rest with
      | nil =>
        cases h
        have hsame : SameService conn { conn with caller := some (call, .readingHead []) } := ⟨rfl, rfl, rfl⟩
        exact ⟨hsame, _, rfl, hinv.client hsame hinv.up hinv.down nofun nofun nofun⟩
      | cons => cases h
    | fail =>
      cases h
      have hsame : SameService conn { conn with
        clientClosed := true, caller := some (call, .returned .writeError call.resLen []) } := ⟨rfl, rfl, rfl⟩
      exact ⟨hsame, _, rfl, hinv.client hsame (fun got hgot => (hinv.up got hgot).gone) nofun nofun nofun nofun⟩
    | read => cases h
  | readingHead got =>
    cases a with
    | read n =>
      simp only [clientNext, Option.ite_none_right_eq_some, Option.some.injEq] at h
      obtain ⟨-, rfl⟩ := h
      have hsame : SameService conn { conn with
        down := conn.down.drop n, caller := some (call, .readingHead (got ++ conn.down.take n)) } := ⟨rfl, rfl, rfl⟩
      refine ⟨hsame, _, rfl, hinv.client hsame hinv.up ?_ nofun nofun nofun⟩
      rintro _ ⟨⟩
      exact (hinv.down got rfl).read n
    | proceed =>
      simp only [clientNext, Option.ite_none_right_eq_some] at h
      obtain ⟨hlength, h⟩ := h
      obtain ⟨a, ha, hstatus, hhead, hgot⟩ := response_head (hinv.down got rfl) hlength
      split at h
      · rename_i hlt
        cases h
        have hsame : SameService conn { conn with
          caller := some (call, .returned .improperData (scriptHeadLayout.decode got).length []) } := ⟨rfl, rfl, rfl⟩
        refine ⟨hsame, _, rfl, hinv.client hsame (fun got hgot => (hinv.up got hgot).gone) nofun nofun nofun ?_⟩
        rintro _ _ ⟨⟩
        rw [hhead] at hlt ⊢
        exact ⟨a, ha, hstatus, rfl, hlt⟩
      · rename_i hle
        cases h
        have hsame : SameService conn { conn with
          caller := some (call, .readingBody (scriptHeadLayout.decode got) []) } := ⟨rfl, rfl, rfl⟩
        refine ⟨hsame, _, rfl, hinv.client hsame hinv.up ?_ ?_ nofun nofun⟩
        · rintro _ ⟨⟩
          rw [hhead, List.append_nil, ← hgot]
          exact hinv.down got rfl
        · rintro _ _ ⟨⟩
          exact BitVec.not_lt.1 hle
    | fail =>
      cases h
      have hsame : SameService conn { conn with
        clientClosed := true, caller := some (call, .returned .readError call.resLen []) } := ⟨rfl, rfl, rfl⟩
      exact ⟨hsame, _, rfl, hinv.client hsame (fun got hgot => (hinv.up got hgot).gone) nofun nofun nofun nofun⟩
    | write => cases h
  | readingBody head got =>
    cases a with
    | read n =>
      simp only [clientNext, Option.ite_none_right_eq_some, Option.some.injEq] at h
      obtain ⟨-, rfl⟩ := h
      have hsame : SameService conn { conn with
        down := conn.down.drop n, caller := some (call, .readingBody head (got ++ conn.down.take n)) } := ⟨rfl, rfl, rfl⟩
      refine ⟨hsame, _, rfl, hinv.client hsame hinv.up ?_ ?_ nofun nofun⟩
      · rintro _ ⟨⟩
        rw [← List.append_assoc]
        exact (hinv.down _ rfl).read n
      · rintro _ _ ⟨⟩
        exact hinv.fits head got rfl
    | proceed =>
      simp only [clientNext, Option.ite_none_right_eq_some, Option.some.injEq] at h
      obtain ⟨hlength, rfl⟩ := h
      obtain ⟨a, ha, hstatus, rfl, hcarries⟩ := response_body (hinv.down _ rfl)
      have hsame : SameService conn { conn with
        clientClosed := true, caller := some (call, .returned .success a.head.length got) } := ⟨rfl, rfl, rfl⟩
      refine ⟨hsame, _, rfl, hinv.client hsame (fun got hgot => (hinv.up got hgot).gone) nofun nofun ?_ nofun⟩
      rintro _ _ ⟨⟩
      refine ⟨a, ha, hstatus, rfl, ?_, hinv.fits _ _ rfl⟩
      have hgot := hcarries.got_eq
      rwa [List.take_of_length_le] at hgot
      rw [a.ret.length_take, hlength]
      exact le_rfl
    | fail =>
      cases h
      have hsame : SameService conn { conn with
        clientClosed := true, caller := some (call, .returned .readError head.length got) } := ⟨rfl, rfl, rfl⟩
      exact ⟨hsame, _, rfl, hinv.client hsame (fun got hgot => (hinv.up got hgot).gone) nofun nofun nofun nofun⟩
    | write => cases h
  | returned => cases a <;> cases h

/-! ## Steps of the service -/

/-- A service function that returns gives what it may return. -/
def ReturnsOk (Returns : ScriptType → MtcU32 → List Byte → ServiceReturn → Prop) (server : ServerPc) (a : ServerAction) : Prop :=
  ∀ type head body ret, server = .calling type head body → a = .returns ret → Returns type head.length body ret

/-- The service closes a connection without running a function. -/
theorem ServiceInv.close (hinv : ServiceInv Returns conn) : ServiceInv Returns { conn with server := .closed } :=
  ⟨nofun, nofun, hinv.returns, nofun, nofun⟩

theorem CallInv.close (hinv : CallInv call pc conn) : CallInv call pc { conn with server := .closed } :=
  ⟨nofun, fun got hgot => (hinv.down got hgot).gone, nofun, hinv.request, hinv.fits, hinv.success, hinv.improper⟩

/-- Before a service function has been run the script has read nothing. -/
theorem CallInv.early (hinv : CallInv call pc conn) (hnone : conn.answered = none) (hgot : got ∈ clientGot pc) :
    got = [] ∧ conn.down = [] := by
  obtain ⟨tail, hmessage, -⟩ := hinv.down got hgot
  rw [ScriptConnection.response, hnone] at hmessage
  obtain ⟨hread, -⟩ := List.append_eq_nil_iff.1 hmessage
  exact List.append_eq_nil_iff.1 hread

/-- A service function has been run, and its answer may be written. -/
theorem CallInv.answer {type : ScriptType} {body : List Byte} {ret : ServiceReturn} {rest : Option (List Byte)}
    (hinv : CallInv call pc conn) (hserver : conn.server = .calling type head body) (hnone : conn.answered = none)
    (hgot : serverGot server' = none) (hrest : serverRest server' = rest)
    (hcalling : ∀ type head body, server' ≠ .calling type head body)
    (hmessage : ∀ r ∈ rest, r = (ScriptAnswer.mk type head.length body ret).message) :
    CallInv call pc { conn with server := server', answered := some ⟨type, head.length, body, ret⟩ } := by
  obtain ⟨htype, hlength, hbody⟩ := hinv.calling type head body hserver
  refine ⟨?_, fun got hgot => ?_, fun type head body h => absurd h (hcalling type head body), ?_, hinv.fits, ?_, ?_⟩
  · rw [hgot]
    exact nofun
  · obtain ⟨rfl, hdown⟩ := hinv.early hnone hgot
    rw [hdown, hrest]
    exact ⟨_, rfl, hmessage⟩
  · rintro _ ⟨⟩
    exact ⟨htype, hlength, hbody⟩
  · intro len bytes hpc
    obtain ⟨a, ha, -⟩ := hinv.success len bytes hpc
    rw [hnone] at ha
    cases ha
  · intro len bytes hpc
    obtain ⟨a, ha, -⟩ := hinv.improper len bytes hpc
    rw [hnone] at ha
    cases ha

theorem checkHeadValid_eq_success (h : checkHeadValid head = .success) :
    head.magic = scriptMagic ∧ head.response = 0 ∧ head.type.toNat < scriptTypeNum ∧ head.length.toNat ≤ requestBodySize := by
  unfold checkHeadValid at h
  grind

/-- A read behind what has been read of the body. -/
theorem patch_paddedBody {new : List Byte} (h : got.length + new.length ≤ requestBodySize) :
    patch (paddedBody got) got.length new = paddedBody (got ++ new) := by
  have hzeros : List.replicate (requestBodySize - got.length) (0 : Byte) =
      List.replicate new.length 0 ++ List.replicate (requestBodySize - (got ++ new).length) 0 := by
    rw [List.replicate_append_replicate, List.length_append]
    congr 1
    omega
  rw [paddedBody, hzeros, patch_append _ _ _ List.length_replicate.symm, paddedBody, List.append_assoc]

/-- The buffer follows the reads. -/
theorem RequestRead.step {request : List Byte} {a : ServerAction} (hinv : ServiceInv Returns conn)
    (hrequest : RequestRead request conn.server) (h : serverNext request conn conn.server a = some conn') :
    RequestRead (fillRequest request conn conn.server a) conn'.server := by
  obtain ⟨socket, caller, up, down, clientClosed, server, answered⟩ := conn
  cases server with
  | queued | closed => cases a <;> cases h
  | head got =>
    cases a with
    | read n =>
      simp only [serverNext, Option.ite_none_right_eq_some, Option.some.injEq] at h
      obtain ⟨-, rfl⟩ := h
      exact hrequest
    | proceed =>
      simp only [serverNext, Option.ite_none_right_eq_some] at h
      obtain ⟨-, h⟩ := h
      split at h
      · cases h
        exact hrequest
      · cases h
        trivial
    | fail =>
      cases h
      trivial
    | write | returns => cases h
  | body head got =>
    cases a with
    | read n =>
      simp only [serverNext, Option.ite_none_right_eq_some, Option.some.injEq, takes, Bool.and_eq_true,
        decide_eq_true_eq] at h
      obtain ⟨⟨⟨hpos, hthere⟩, hasked⟩, rfl⟩ := h
      obtain ⟨-, -, -, hfits⟩ := checkHeadValid_eq_success (hinv.body head got rfl)
      have hrequest : request = paddedBody got := hrequest
      have hlength : got.length + (up.take n).length ≤ requestBodySize := by
        rw [List.length_take_of_le hthere]
        omega
      rw [hrequest]
      exact patch_paddedBody hlength
    | proceed =>
      simp only [serverNext, Option.ite_none_right_eq_some] at h
      obtain ⟨-, h⟩ := h
      split at h
      · cases h
        trivial
      · cases h
        trivial
    | fail =>
      cases h
      trivial
    | write | returns => cases h
  | calling type head body =>
    cases a with
    | returns ret =>
      simp only [serverNext] at h
      split at h
      · cases h
        trivial
      · cases h
        trivial
    | read | write | proceed | fail => cases h
  | writing answer rest =>
    cases a with
    | write n =>
      simp only [serverNext, Option.ite_none_right_eq_some, Option.some.injEq] at h
      obtain ⟨-, rfl⟩ := h
      trivial
    | proceed =>
      cases rest with
      | nil =>
        cases h
        trivial
      | cons => cases h
    | fail =>
      cases h
      trivial
    | read | returns => cases h

/-- The service goes on with a connection. -/
theorem ServiceInv.step {request : List Byte} {a : ServerAction} (hinv : ServiceInv Returns conn)
    (hok : ReturnsOk Returns conn.server a) (hrequest : RequestRead request conn.server)
    (h : serverNext request conn conn.server a = some conn') :
    conn'.socket = conn.socket ∧ conn'.caller = conn.caller ∧ ServiceInv Returns conn' ∧
      ∀ call pc, CallInv call pc conn → CallInv call pc conn' := by
  obtain ⟨socket, caller, up, down, clientClosed, server, answered⟩ := conn
  cases server with
  | queued => cases a <;> cases h
  | closed => cases a <;> cases h
  | head got =>
    cases a with
    | read n =>
      simp only [serverNext, Option.ite_none_right_eq_some, Option.some.injEq] at h
      obtain ⟨-, rfl⟩ := h
      refine ⟨rfl, rfl, ⟨fun _ => hinv.early rfl, nofun, hinv.returns, nofun, nofun⟩, fun call pc hcall => ?_⟩
      refine ⟨?_, hcall.down, nofun, hcall.request, hcall.fits, hcall.success, hcall.improper⟩
      rintro _ ⟨⟩
      exact (hcall.up got rfl).read n
    | proceed =>
      simp only [serverNext, Option.ite_none_right_eq_some] at h
      obtain ⟨hlength, h⟩ := h
      split at h
      · rename_i hvalid
        cases h
        refine ⟨rfl, rfl, ⟨fun _ => hinv.early rfl, nofun, hinv.returns, ?_, nofun⟩, fun call pc hcall => ?_⟩
        · rintro _ _ ⟨⟩
          exact hvalid
        · refine ⟨?_, hcall.down, nofun, hcall.request, hcall.fits, hcall.success, hcall.improper⟩
          rintro _ ⟨⟩
          rw [scriptHeadLayout.encode_decode got hlength, List.append_nil]
          exact hcall.up got rfl
      · cases h
        exact ⟨rfl, rfl, hinv.close, fun _ _ hcall => hcall.close⟩
    | fail =>
      cases h
      exact ⟨rfl, rfl, hinv.close, fun _ _ hcall => hcall.close⟩
    | write | returns => cases h
  | body head got =>
    cases a with
    | read n =>
      simp only [serverNext, Option.ite_none_right_eq_some, Option.some.injEq] at h
      obtain ⟨-, rfl⟩ := h
      refine ⟨rfl, rfl, ⟨fun _ => hinv.early rfl, nofun, hinv.returns, ?_, nofun⟩, fun call pc hcall => ?_⟩
      · rintro _ _ ⟨⟩
        exact hinv.body head got rfl
      · refine ⟨?_, hcall.down, nofun, hcall.request, hcall.fits, hcall.success, hcall.improper⟩
        rintro _ ⟨⟩
        rw [← List.append_assoc]
        exact (hcall.up _ rfl).read n
    | proceed =>
      simp only [serverNext, Option.ite_none_right_eq_some] at h
      obtain ⟨hlength, h⟩ := h
      split at h
      · cases h
        exact ⟨rfl, rfl, hinv.close, fun _ _ hcall => hcall.close⟩
      · rename_i type hfunc
        cases h
        refine ⟨rfl, rfl, ⟨fun _ => hinv.early rfl, nofun, hinv.returns, nofun, ?_⟩, fun call pc hcall => ?_⟩
        · rintro _ _ _ ⟨⟩
          exact ⟨hinv.body head got rfl, hfunc, got, hlength, hrequest⟩
        · refine ⟨nofun, hcall.down, ?_, hcall.request, hcall.fits, hcall.success, hcall.improper⟩
          rintro _ _ _ ⟨⟩
          -- what has been read is the request
          obtain ⟨rfl, hcarries⟩ := scriptHead_eq (hcall.up _ rfl)
          have hgot := hcarries.got_eq
          rw [List.take_of_length_le (hlength.trans call.reqLen_toNat).ge] at hgot
          subst hgot
          exact ⟨serviceFunc_number hfunc, rfl, hrequest⟩
    | fail =>
      cases h
      exact ⟨rfl, rfl, hinv.close, fun _ _ hcall => hcall.close⟩
    | write | returns => cases h
  | calling type head body =>
    cases a with
    | returns ret =>
      have hreturns : ∀ a ∈ some (ScriptAnswer.mk type head.length body ret), Returns a.type a.reqLen a.reqBody a.ret := by
        rintro _ ⟨⟩
        exact hok type head body ret rfl rfl
      have hnone : answered = none := hinv.early rfl
      simp only [serverNext] at h
      split at h
      · cases h
        refine ⟨rfl, rfl, ⟨nofun, ?_, hreturns, nofun, nofun⟩, fun call pc hcall => ?_⟩
        · rintro _ _ ⟨⟩
          rfl
        · refine hcall.answer rfl hnone rfl rfl nofun ?_
          rintro _ ⟨⟩
          rfl
      · cases h
        exact ⟨rfl, rfl, ⟨nofun, nofun, hreturns, nofun, nofun⟩, fun call pc hcall =>
          hcall.answer rfl hnone rfl rfl nofun nofun⟩
    | read | write | proceed | fail => cases h
  | writing answer rest =>
    cases a with
    | write n =>
      simp only [serverNext, Option.ite_none_right_eq_some, Option.some.injEq] at h
      obtain ⟨-, rfl⟩ := h
      refine ⟨rfl, rfl, ⟨nofun, ?_, hinv.returns, nofun, nofun⟩, fun call pc hcall => ?_⟩
      · rintro _ _ ⟨⟩
        exact hinv.writing answer rest rfl
      · exact ⟨nofun, fun got hgot => (hcall.down got hgot).write n, nofun, hcall.request, hcall.fits, hcall.success,
          hcall.improper⟩
    | proceed =>
      cases rest with
      | nil =>
        cases h
        exact ⟨rfl, rfl, hinv.close, fun _ _ hcall => hcall.close⟩
      | cons => cases h
    | fail =>
      cases h
      exact ⟨rfl, rfl, hinv.close, fun _ _ hcall => hcall.close⟩
    | read | returns => cases h

theorem serverNext_not_queued {request : List Byte} {a : ServerAction}
    (h : serverNext request conn server a = some conn') : conn'.server ≠ .queued := by
  unfold serverNext at h
  split at h <;> grind

/-! ## All connections -/

/-- A script that has not come back yet will read a message: it has read a beginning, and the rest is there. -/
def Delivered (conn : ScriptConnection) (message : List Byte) : Prop :=
  ∀ call pc, conn.caller = some (call, pc) → ∀ got ∈ clientGot pc, got ++ conn.down = message

theorem Delivered.step {a : ClientAction} {message : List Byte} (hcaller : conn.caller = some (call, pc))
    (h : clientNext conn call pc a = some conn') (hd : Delivered conn message) : Delivered conn' message := by
  have hgot := hd call pc hcaller
  have hdone : ∀ {conn' : ScriptConnection} (pc' : ClientPc), conn'.caller = some (call, pc') →
      (∀ got ∈ clientGot pc', got ++ conn'.down = message) → Delivered conn' message := by
    intro conn' pc' hcaller' hgot' call₁ pc₁ hcaller₁
    rw [hcaller'] at hcaller₁
    cases hcaller₁
    exact hgot'
  cases pc with
  | writingHead rest | writingBody rest =>
    cases a with
    | write n =>
      simp only [clientNext, Option.ite_none_right_eq_some, Option.some.injEq] at h
      obtain ⟨-, rfl⟩ := h
      exact hdone _ rfl hgot
    | proceed =>
      cases rest with
      | nil =>
        cases h
        exact hdone _ rfl hgot
      | cons => cases h
    | fail =>
      cases h
      exact hdone _ rfl nofun
    | read => cases h
  | readingHead got =>
    cases a with
    | read n =>
      simp only [clientNext, Option.ite_none_right_eq_some, Option.some.injEq] at h
      obtain ⟨-, rfl⟩ := h
      refine hdone _ rfl ?_
      rintro _ ⟨⟩
      dsimp only
      rw [List.append_assoc, List.take_append_drop]
      exact hgot got rfl
    | proceed =>
      simp only [clientNext, Option.ite_none_right_eq_some] at h
      obtain ⟨hlength, h⟩ := h
      split at h
      · cases h
        exact hdone _ rfl nofun
      · cases h
        refine hdone _ rfl ?_
        rintro _ ⟨⟩
        rw [scriptHeadLayout.encode_decode got hlength, List.append_nil]
        exact hgot got rfl
    | fail =>
      cases h
      exact hdone _ rfl nofun
    | write => cases h
  | readingBody head got =>
    cases a with
    | read n =>
      simp only [clientNext, Option.ite_none_right_eq_some, Option.some.injEq] at h
      obtain ⟨-, rfl⟩ := h
      refine hdone _ rfl ?_
      rintro _ ⟨⟩
      dsimp only
      rw [List.append_assoc, List.append_assoc, List.take_append_drop, ← List.append_assoc]
      exact hgot _ rfl
    | proceed =>
      simp only [clientNext, Option.ite_none_right_eq_some, Option.some.injEq] at h
      obtain ⟨-, rfl⟩ := h
      exact hdone _ rfl nofun
    | fail =>
      cases h
      exact hdone _ rfl nofun
    | write => cases h
  | returned => cases a <;> cases h

end

variable {Returns : ScriptType → MtcU32 → List Byte → ServiceReturn → Prop} {s s' : ScriptState} {c : Nat}
  {conn conn' : ScriptConnection} {socket : ScriptSocket}

/-- The connections are as the service and the scripts leave them; the thread of a socket is at the connection of the socket
that is being served, and those that wait have not been touched. -/
structure SystemInv (Returns : ScriptType → MtcU32 → List Byte → ServiceReturn → Prop) (s : ScriptState) : Prop where
  service : ∀ c conn, s.conn c = some conn → ServiceInv Returns conn
  call : ∀ c conn call pc, s.conn c = some conn → conn.caller = some (call, pc) → CallInv call pc conn
  serving : ∀ socket c, s.serving socket = some c →
    ∃ conn, s.conn c = some conn ∧ conn.socket = socket ∧ conn.server.atWork = true
  atWork : ∀ c conn, s.conn c = some conn → conn.server.atWork = true → s.serving conn.socket = some c
  backlog : ∀ socket, ∀ c ∈ s.backlog socket, ∃ conn, s.conn c = some conn ∧ conn.socket = socket ∧ conn.server = .queued
  nodup : ∀ socket, (s.backlog socket).Nodup
  request : ∀ c conn, s.conn c = some conn → RequestRead (s.request conn.socket) conn.server
  ended : s.exited = true → ∃ c conn a, s.conn c = some conn ∧ conn.server = .closed ∧ conn.answered = some a ∧
    checkAfterSetExcluded a = true ∧ Delivered conn a.message

/-- What the service functions return is what they may return. -/
def ServiceOk (Returns : ScriptType → MtcU32 → List Byte → ServiceReturn → Prop) (s : ScriptState) : ScriptAction → Prop
  | .server socket a => ∀ c conn, s.serving socket = some c → s.conn c = some conn → ReturnsOk Returns conn.server a
  | _ => True

/-- One connection changes. -/
theorem conn_update {x : ScriptConnection} (hconn : s'.conn = Function.update s.conn c (some x)) {c' : Nat}
    (h : s'.conn c' = some conn') : (c' = c ∧ conn' = x) ∨ (c' ≠ c ∧ s.conn c' = some conn') := by
  rw [hconn] at h
  by_cases hc : c' = c
  · subst hc
    rw [Function.update_self] at h
    exact .inl ⟨rfl, (Option.some.inj h).symm⟩
  · rw [Function.update_of_ne hc] at h
    exact .inr ⟨hc, h⟩

/-- The program at the other end of a connection does something. -/
theorem SystemInv.touch (hinv : SystemInv Returns s) (hold : s.conn c = some conn) (hsame : SameService conn conn')
    (hcall : ∀ call pc, conn'.caller = some (call, pc) → CallInv call pc conn')
    (hdelivered : ∀ message, Delivered conn message → Delivered conn' message) : SystemInv Returns (s.setConn c conn') := by
  have hconn : (s.setConn c conn').conn = Function.update s.conn c (some conn') := rfl
  have hself : (s.setConn c conn').conn c = some conn' := Function.update_self ..
  have hother : ∀ c', c' ≠ c → (s.setConn c conn').conn c' = s.conn c' := fun c' hc => Function.update_of_ne hc ..
  -- what holds of where the service stands holds as before
  have hkeep : ∀ (p : ScriptSocket → ServerPc → Prop) (c' : Nat), (∃ x, s.conn c' = some x ∧ p x.socket x.server) →
      ∃ x, (s.setConn c conn').conn c' = some x ∧ p x.socket x.server := by
    rintro p c' ⟨x, hx, hp⟩
    by_cases hc : c' = c
    · subst hc
      rw [hold] at hx
      cases hx
      exact ⟨conn', hself, by rw [hsame.socket, hsame.server]; exact hp⟩
    · exact ⟨x, (hother c' hc).trans hx, hp⟩
  refine ⟨fun c' x hx => ?_, fun c' x call pc hx hcaller => ?_, fun socket c' hserving => ?_, fun c' x hx hwork => ?_,
    fun socket c' hc' => ?_, hinv.nodup, fun c' x hx => ?_, fun hexited => ?_⟩
  · rcases conn_update hconn hx with ⟨rfl, rfl⟩ | ⟨-, hx⟩
    · exact hsame.service (hinv.service c' conn hold)
    · exact hinv.service c' x hx
  · rcases conn_update hconn hx with ⟨rfl, rfl⟩ | ⟨-, hx⟩
    · exact hcall call pc hcaller
    · exact hinv.call c' x call pc hx hcaller
  · exact hkeep (fun socket' server => socket' = socket ∧ server.atWork = true) c' (hinv.serving socket c' hserving)
  · rcases conn_update hconn hx with ⟨rfl, rfl⟩ | ⟨-, hx⟩
    · rw [hsame.server] at hwork
      rw [hsame.socket]
      exact hinv.atWork c' conn hold hwork
    · exact hinv.atWork c' x hx hwork
  · exact hkeep (fun socket' server => socket' = socket ∧ server = .queued) c' (hinv.backlog socket c' hc')
  · rcases conn_update hconn hx with ⟨rfl, rfl⟩ | ⟨-, hx⟩
    · rw [hsame.socket, hsame.server]
      exact hinv.request c' conn hold
    · exact hinv.request c' x hx
  · obtain ⟨c', x, a, hx, hclosed, ha, hends, hd⟩ := hinv.ended hexited
    by_cases hc : c' = c
    · subst hc
      rw [hold] at hx
      cases hx
      exact ⟨c', conn', a, hself, hsame.server.trans hclosed, hsame.answered.trans ha, hends, hdelivered _ hd⟩
    · exact ⟨c', x, a, (hother c' hc).trans hx, hclosed, ha, hends, hd⟩

/-- A connection comes to a socket. -/
theorem SystemInv.arrive {caller : Option (ScriptCall × ClientPc)} (hinv : SystemInv Returns s)
    (hcaller : ∀ call pc, caller = some (call, pc) → pc = .writingHead (scriptHeadLayout.encode call.head))
    (h : s.arrive c socket caller = some s') : SystemInv Returns s' := by
  rw [ScriptState.arrive, Option.ite_none_left_eq_some, Option.some.injEq] at h
  obtain ⟨hnew, rfl⟩ := h
  have hnew : s.exited = false ∧ s.conn c = none := by simpa using hnew
  generalize hfresh : (⟨socket, caller, [], [], false, .queued, none⟩ : ScriptConnection) = fresh
  have hconn : (s.setConn c fresh).conn = Function.update s.conn c (some fresh) := rfl
  have hother : ∀ c' x, s.conn c' = some x → (s.setConn c fresh).conn c' = some x := by
    intro c' x hx
    rw [hconn, Function.update_of_ne, hx]
    rintro rfl
    rw [hnew.2] at hx
    cases hx
  refine ⟨fun c' x hx => ?_, fun c' x call pc hx hcaller' => ?_, fun socket' c' hserving => ?_, fun c' x hx hwork => ?_,
    fun socket' c' hc' => ?_, fun socket' => ?_, fun c' x hx => ?_, fun hexited => ?_⟩
  · rcases conn_update hconn hx with ⟨rfl, rfl⟩ | ⟨-, hx⟩
    · subst hfresh
      exact ⟨fun _ => rfl, nofun, nofun, nofun, nofun⟩
    · exact hinv.service c' x hx
  · rcases conn_update hconn hx with ⟨rfl, rfl⟩ | ⟨-, hx⟩
    · subst hfresh
      obtain rfl := hcaller call pc hcaller'
      refine ⟨?_, ?_, nofun, nofun, nofun, nofun, nofun⟩
      · rintro _ ⟨⟩
        exact .start
      · rintro _ ⟨⟩
        exact ⟨[], rfl, nofun⟩
    · exact hinv.call c' x call pc hx hcaller'
  · obtain ⟨x, hx, hp⟩ := hinv.serving socket' c' hserving
    exact ⟨x, hother c' x hx, hp⟩
  · rcases conn_update hconn hx with ⟨rfl, rfl⟩ | ⟨-, hx⟩
    · subst hfresh
      cases hwork
    · exact hinv.atWork c' x hx hwork
  · have hc' : c' ∈ Function.update s.backlog socket (s.backlog socket ++ [c]) socket' := hc'
    by_cases hs : socket' = socket
    · subst hs
      rw [Function.update_self, List.mem_append, List.mem_singleton] at hc'
      rcases hc' with hc' | rfl
      · obtain ⟨x, hx, hp⟩ := hinv.backlog socket' c' hc'
        exact ⟨x, hother c' x hx, hp⟩
      · subst hfresh
        exact ⟨_, Function.update_self .., rfl, rfl⟩
    · rw [Function.update_of_ne hs] at hc'
      obtain ⟨x, hx, hp⟩ := hinv.backlog socket' c' hc'
      exact ⟨x, hother c' x hx, hp⟩
  · have hback : (Function.update s.backlog socket (s.backlog socket ++ [c]) socket').Nodup := by
      by_cases hs : socket' = socket
      · subst hs
        rw [Function.update_self]
        refine List.Nodup.append (hinv.nodup socket') (List.nodup_singleton c) ?_
        intro c' hc' hmem
        rw [List.mem_singleton] at hmem
        subst hmem
        obtain ⟨x, hx, -⟩ := hinv.backlog socket' c' hc'
        rw [hnew.2] at hx
        cases hx
      · rw [Function.update_of_ne hs]
        exact hinv.nodup socket'
    exact hback
  · rcases conn_update hconn hx with ⟨rfl, rfl⟩ | ⟨-, hx⟩
    · subst hfresh
      trivial
    · exact hinv.request c' x hx
  · have hexited : s.exited = true := hexited
    rw [hnew.1] at hexited
    cases hexited

/-- The thread of a socket accepts the connection that has waited longest. -/
theorem SystemInv.accept (hinv : SystemInv Returns s) (h : serviceNext s (.accept socket) = some s') : SystemInv Returns s' := by
  rw [serviceNext, Option.ite_none_left_eq_some] at h
  obtain ⟨hfree, h⟩ := h
  have hfree : s.exited = false ∧ s.serving socket = none := by simpa using hfree
  cases hback : s.backlog socket with
  | nil =>
    rw [hback] at h
    cases h
  | cons c waiting =>
    rw [hback] at h
    obtain ⟨conn, hold, rfl⟩ := Option.map_eq_some_iff.1 h
    have hwaits : ∀ c' ∈ c :: waiting, ∃ x, s.conn c' = some x ∧ x.socket = socket ∧ x.server = .queued :=
      fun c' hc' => hinv.backlog socket c' (hback ▸ hc')
    obtain ⟨x, hx, rfl, hqueued⟩ := hwaits c List.mem_cons_self
    rw [hold] at hx
    cases hx
    obtain ⟨hnot, hnodup⟩ := List.nodup_cons.1 (hback ▸ hinv.nodup conn.socket)
    generalize hfresh : ({ conn with server := .head [] } : ScriptConnection) = conn'
    have hconn : (s.setConn c conn').conn = Function.update s.conn c (some conn') := rfl
    have hother : ∀ c', c' ≠ c → (s.setConn c conn').conn c' = s.conn c' := fun c' hc => Function.update_of_ne hc ..
    refine ⟨fun c' x hx => ?_, fun c' x call pc hx hcaller => ?_, fun socket' c' hserving => ?_, fun c' x hx hwork => ?_,
      fun socket' c' hc' => ?_, fun socket' => ?_, fun c' x hx => ?_, fun hexited => ?_⟩
    · rcases conn_update hconn hx with ⟨rfl, rfl⟩ | ⟨-, hx⟩
      · subst hfresh
        have hold := hinv.service c' conn hold
        exact ⟨fun _ => hold.early (by rw [hqueued]; rfl), nofun, hold.returns, nofun, nofun⟩
      · exact hinv.service c' x hx
    · rcases conn_update hconn hx with ⟨rfl, rfl⟩ | ⟨-, hx⟩
      · subst hfresh
        have hcall := hinv.call c' conn call pc hold hcaller
        obtain ⟨hup, hdown, -, hrequest, hfits, hsuccess, himproper⟩ := hcall
        rw [hqueued] at hup hdown
        exact ⟨hup, hdown, nofun, hrequest, hfits, hsuccess, himproper⟩
      · exact hinv.call c' x call pc hx hcaller
    · have hserving : Function.update s.serving conn.socket (some c) socket' = some c' := hserving
      by_cases hs : socket' = conn.socket
      · subst hs
        rw [Function.update_self] at hserving
        cases hserving
        subst hfresh
        exact ⟨_, Function.update_self .., rfl, rfl⟩
      · rw [Function.update_of_ne hs] at hserving
        obtain ⟨x, hx, hsocket, hwork⟩ := hinv.serving socket' c' hserving
        refine ⟨x, (hother c' ?_).trans hx, hsocket, hwork⟩
        rintro rfl
        rw [hold] at hx
        cases hx
        exact hs hsocket.symm
    · rcases conn_update hconn hx with ⟨rfl, rfl⟩ | ⟨-, hx⟩
      · subst hfresh
        exact Function.update_self ..
      · have hserving := hinv.atWork c' x hx hwork
        have hs : x.socket ≠ conn.socket := by
          intro hs
          rw [hs, hfree.2] at hserving
          cases hserving
        exact (Function.update_of_ne hs ..).trans hserving
    · have hc' : c' ∈ Function.update s.backlog conn.socket waiting socket' := hc'
      by_cases hs : socket' = conn.socket
      · subst hs
        rw [Function.update_self] at hc'
        have hne : c' ≠ c := ne_of_mem_of_not_mem hc' hnot
        obtain ⟨x, hx, hp⟩ := hwaits c' (List.mem_cons_of_mem _ hc')
        exact ⟨x, (hother c' hne).trans hx, hp⟩
      · rw [Function.update_of_ne hs] at hc'
        obtain ⟨x, hx, hsocket, hq⟩ := hinv.backlog socket' c' hc'
        refine ⟨x, (hother c' ?_).trans hx, hsocket, hq⟩
        rintro rfl
        rw [hold] at hx
        cases hx
        exact hs hsocket.symm
    · have hback' : (Function.update s.backlog conn.socket waiting socket').Nodup := by
        by_cases hs : socket' = conn.socket
        · subst hs
          rw [Function.update_self]
          exact hnodup
        · rw [Function.update_of_ne hs]
          exact hinv.nodup socket'
      exact hback'
    · rcases conn_update hconn hx with ⟨rfl, rfl⟩ | ⟨-, hx⟩
      · subst hfresh
        exact Function.update_self ..
      · -- nobody else is read at this socket
        have hrequest := hinv.request c' x hx
        by_cases hs : x.socket = conn.socket
        · have hidle : x.server.atWork = false := by
            by_contra hwork
            have hserving := hinv.atWork c' x hx (Bool.not_eq_false _ ▸ hwork)
            rw [hs, hfree.2] at hserving
            cases hserving
          exact hrequest.of_idle hidle
        · have hsame : (Function.update s.request conn.socket clearedRequest) x.socket = s.request x.socket :=
            Function.update_of_ne hs ..
          rwa [← hsame] at hrequest
    · have hexited : s.exited = true := hexited
      rw [hfree.1] at hexited
      cases hexited

/-- When the process ends, the response has been written. -/
theorem endsProcess_delivered {request : List Byte} {a : ServerAction} (hinv : ServiceInv Returns conn)
    (hcall : ∀ call pc, conn.caller = some (call, pc) → CallInv call pc conn) (hends : endsProcess conn.server a = true)
    (h : serverNext request conn conn.server a = some conn') :
    ∃ answer, conn'.server = .closed ∧ conn'.answered = some answer ∧ checkAfterSetExcluded answer = true ∧
      Delivered conn' answer.message := by
  obtain ⟨socket, caller, up, down, clientClosed, server, answered⟩ := conn
  cases server with
  | writing answer rest =>
    cases rest with
    | nil =>
      cases a with
      | proceed =>
        have hanswered : answered = some answer := hinv.writing answer [] rfl
        subst hanswered
        cases h
        refine ⟨answer, rfl, rfl, hends, fun call pc hcaller got hgot => ?_⟩
        have hdown : Carries answer.message got down (some []) := (hcall call pc hcaller).down got hgot
        exact hdown.done
      | read | write | returns | fail => cases hends
    | cons => cases a <;> cases hends
  | queued | head | body | calling | closed => cases a <;> cases hends

theorem SystemInv.serve {a : ServerAction} (hinv : SystemInv Returns s) (hok : ServiceOk Returns s (.server socket a))
    (h : serviceNext s (.server socket a) = some s') : SystemInv Returns s' := by
  rw [serviceNext, Option.ite_none_left_eq_some] at h
  obtain ⟨hrunning, h⟩ := h
  simp only [Option.bind_eq_bind, Option.bind_eq_some_iff, Option.pure_def, Option.some.injEq] at h
  obtain ⟨c, hserving, conn, hold, conn', hnext, rfl⟩ := h
  obtain ⟨x, hx, rfl, hwork⟩ := hinv.serving socket c hserving
  rw [hold] at hx
  cases hx
  have hrequest := hinv.request c conn hold
  have hread := hrequest.step (hinv.service c conn hold) hnext
  obtain ⟨hsocket, hcaller, hservice, hcall⟩ := (hinv.service c conn hold).step (hok c conn hserving hold) hrequest hnext
  have hqueued := serverNext_not_queued hnext
  have hconn : (s.setConn c conn').conn = Function.update s.conn c (some conn') := rfl
  have hother : ∀ c', c' ≠ c → (s.setConn c conn').conn c' = s.conn c' := fun c' hc => Function.update_of_ne hc ..
  -- the connection stays at work until it is closed
  have hgoes : conn'.server.isClosed = false → conn'.server.atWork = true := by
    intro hclosed
    cases hserver : conn'.server with
    | queued => exact absurd hserver hqueued
    | closed =>
      rw [hserver] at hclosed
      cases hclosed
    | head | body | calling | writing => rfl
  have hstops : conn'.server.atWork = true → conn'.server.isClosed = false := by
    intro hwork
    cases hserver : conn'.server with
    | queued | closed =>
      rw [hserver] at hwork
      cases hwork
    | head | body | calling | writing => rfl
  generalize hnow : (if conn'.server.isClosed then Function.update s.serving conn.socket none else s.serving) = serving
  have hserves : ∀ socket, serving socket = if socket = conn.socket ∧ conn'.server.isClosed = true then none
      else s.serving socket := by
    intro socket
    rw [← hnow]
    by_cases hclosed : conn'.server.isClosed = true
    · rw [if_pos hclosed]
      by_cases hs : socket = conn.socket
      · rw [hs, Function.update_self, if_pos ⟨rfl, hclosed⟩]
      · rw [Function.update_of_ne hs, if_neg fun h => hs h.1]
    · rw [if_neg hclosed, if_neg fun h => hclosed h.2]
  refine ⟨fun c' x hx => ?_, fun c' x call pc hx hcaller' => ?_, fun socket c' hserving' => ?_, fun c' x hx hwork' => ?_,
    fun socket c' hc' => ?_, hinv.nodup, fun c' x hx => ?_, fun hexited => ?_⟩
  · rcases conn_update hconn hx with ⟨rfl, rfl⟩ | ⟨-, hx⟩
    · exact hservice
    · exact hinv.service c' x hx
  · rcases conn_update hconn hx with ⟨rfl, rfl⟩ | ⟨-, hx⟩
    · rw [hcaller] at hcaller'
      exact hcall call pc (hinv.call c' conn call pc hold hcaller')
    · exact hinv.call c' x call pc hx hcaller'
  · have hserving' : serving socket = some c' := hserving'
    rw [hserves] at hserving'
    split at hserving'
    · cases hserving'
    · rename_i hopen
      obtain ⟨x, hx, rfl, hwork'⟩ := hinv.serving socket c' hserving'
      by_cases hc : c' = c
      · subst hc
        rw [hold] at hx
        cases hx
        refine ⟨conn', Function.update_self .., hsocket, hgoes ?_⟩
        exact Bool.eq_false_iff.2 fun hclosed => hopen ⟨rfl, hclosed⟩
      · exact ⟨x, (hother c' hc).trans hx, rfl, hwork'⟩
  · have hgoal : serving x.socket = some c' := by
      rcases conn_update hconn hx with ⟨rfl, rfl⟩ | ⟨hc, hx⟩
      · rw [hserves, if_neg, hsocket]
        · exact hserving
        · rw [hstops hwork']
          exact fun h => Bool.false_ne_true h.2
      · have hserving' := hinv.atWork c' x hx hwork'
        rw [hserves, if_neg]
        · exact hserving'
        · rintro ⟨hs, -⟩
          rw [hs, hserving] at hserving'
          exact hc (Option.some.inj hserving').symm
    exact hgoal
  · obtain ⟨x, hx, hs, hq⟩ := hinv.backlog socket c' hc'
    refine ⟨x, (hother c' ?_).trans hx, hs, hq⟩
    rintro rfl
    rw [hold] at hx
    cases hx
    rw [hq] at hwork
    cases hwork
  · rcases conn_update hconn hx with ⟨rfl, rfl⟩ | ⟨hc, hx⟩
    · rw [hsocket]
      have hself : (Function.update s.request conn.socket
          (fillRequest (s.request conn.socket) conn conn.server a)) conn.socket = _ := Function.update_self ..
      rwa [← hself] at hread
    · -- the thread is at this connection, so it reads no other one
      have hrequest := hinv.request c' x hx
      by_cases hs : x.socket = conn.socket
      · have hidle : x.server.atWork = false := by
          by_contra hwork'
          have hserving' := hinv.atWork c' x hx (Bool.not_eq_false _ ▸ hwork')
          rw [hs, hserving] at hserving'
          exact hc (Option.some.inj hserving').symm
        exact hrequest.of_idle hidle
      · have hsame : (Function.update s.request conn.socket
            (fillRequest (s.request conn.socket) conn conn.server a)) x.socket = s.request x.socket :=
          Function.update_of_ne hs ..
        rwa [← hsame] at hrequest
  · obtain ⟨answer, hclosed, hanswered, hends, hdelivered⟩ :=
      endsProcess_delivered (hinv.service c conn hold) (fun call pc => hinv.call c conn call pc hold) hexited hnext
    exact ⟨c, conn', answer, Function.update_self .., hclosed, hanswered, hends, hdelivered⟩

theorem SystemInv.next {a : ScriptAction} (hinv : SystemInv Returns s) (hok : ServiceOk Returns s a)
    (h : serviceNext s a = some s') : SystemInv Returns s' := by
  cases a with
  | connect c call => exact hinv.arrive (by rintro _ _ ⟨⟩; rfl) h
  | connectOther c socket => exact hinv.arrive (by rintro _ _ ⟨⟩) h
  | client c a =>
    simp only [serviceNext, Option.bind_eq_bind, Option.bind_eq_some_iff, Option.ite_none_right_eq_some,
      Option.map_eq_some_iff] at h
    obtain ⟨conn, hold, ⟨call, pc⟩, hcaller, -, conn', hnext, rfl⟩ := h
    obtain ⟨hsame, pc', hcaller', hcall⟩ := (hinv.call c conn call pc hold hcaller).step hnext
    refine hinv.touch hold hsame (fun call₁ pc₁ hcaller₁ => ?_) fun _ => Delivered.step hcaller hnext
    rw [hcaller'] at hcaller₁
    cases hcaller₁
    exact hcall
  | otherWrites c bytes =>
    simp only [serviceNext, Option.bind_eq_bind, Option.bind_eq_some_iff, Option.ite_none_right_eq_some,
      Option.some.injEq, Bool.and_eq_true, Option.isNone_iff_eq_none] at h
    obtain ⟨conn, hold, ⟨⟨⟨hnone, -⟩, -⟩, -⟩, rfl⟩ := h
    exact hinv.touch hold ⟨rfl, rfl, rfl⟩ (fun call pc hcaller => absurd (hnone.symm.trans hcaller) (Option.some_ne_none _).symm)
      fun _ _ call pc hcaller => absurd (hnone.symm.trans hcaller) (Option.some_ne_none _).symm
  | otherReads c n =>
    simp only [serviceNext, Option.bind_eq_bind, Option.bind_eq_some_iff, Option.ite_none_right_eq_some,
      Option.some.injEq, Option.isNone_iff_eq_none] at h
    obtain ⟨conn, hold, hnone, rfl⟩ := h
    exact hinv.touch hold ⟨rfl, rfl, rfl⟩ (fun call pc hcaller => absurd (hnone.symm.trans hcaller) (Option.some_ne_none _).symm)
      fun _ _ call pc hcaller => absurd (hnone.symm.trans hcaller) (Option.some_ne_none _).symm
  | otherCloses c =>
    simp only [serviceNext, Option.bind_eq_bind, Option.bind_eq_some_iff, Option.ite_none_right_eq_some,
      Option.some.injEq, Option.isNone_iff_eq_none] at h
    obtain ⟨conn, hold, hnone, rfl⟩ := h
    exact hinv.touch hold ⟨rfl, rfl, rfl⟩ (fun call pc hcaller => absurd (hnone.symm.trans hcaller) (Option.some_ne_none _).symm)
      fun _ _ call pc hcaller => absurd (hnone.symm.trans hcaller) (Option.some_ne_none _).symm
  | accept socket => exact hinv.accept h
  | server socket a => exact hinv.serve hok h

theorem SystemInv.of_reach (h : scriptService.Reach (ServiceOk Returns) s) : SystemInv Returns s := by
  refine h.inv ?_ fun _ _ _ hinv hok hn => hinv.next hok hn
  rintro _ ⟨request, rfl⟩
  refine ⟨?_, ?_, ?_, ?_, fun _ => List.forall_mem_nil _, fun _ => List.nodup_nil, ?_, ?_⟩
  · rintro _ _ ⟨⟩
  · rintro _ _ _ _ ⟨⟩
  · rintro _ _ ⟨⟩
  · rintro _ _ ⟨⟩
  · rintro _ _ ⟨⟩
  · rintro ⟨⟩

/-! ## Answers -/

/-- In every run, however the bytes are cut up and whatever others write to the sockets: a call that succeeds has the status
and the body of a run of the service function of its type on its request, and that function succeeded; a call whose buffer
is too small has the length that it would need. -/
theorem script_call_returns (h : scriptService.Reach (ServiceOk Returns) s) (hconn : s.conn c = some conn) {call : ScriptCall}
    {status : ScriptStatus} {len : MtcU32} {bytes : List Byte} (hback : conn.caller = some (call, .returned status len bytes)) :
    (status = .success → ∃ ret, Returns call.type call.reqLen (paddedBody call.reqBody) ret ∧ ret.status = 0 ∧
      len = ret.len ∧ bytes = ret.body.take ret.len.toNat ∧ ret.len ≤ call.resLen) ∧
    (status = .improperData → ∃ ret, Returns call.type call.reqLen (paddedBody call.reqBody) ret ∧ ret.status = 0 ∧
      len = ret.len ∧ call.resLen < ret.len) := by
  have hinv := SystemInv.of_reach h
  have hcall := hinv.call c conn call _ hconn hback
  have hreturns : ∀ a ∈ conn.answered, Returns call.type call.reqLen (paddedBody call.reqBody) a.ret := by
    intro a ha
    obtain ⟨htype, hlen, hbody⟩ := hcall.request a ha
    rw [← htype, ← hlen, ← hbody]
    exact (hinv.service c conn hconn).returns a ha
  constructor
  · rintro rfl
    obtain ⟨a, ha, hanswer⟩ := hcall.success len bytes rfl
    exact ⟨a.ret, hreturns a ha, hanswer⟩
  · rintro rfl
    obtain ⟨a, ha, hanswer⟩ := hcall.improper len bytes rfl
    exact ⟨a.ret, hreturns a ha, hanswer⟩

theorem serviceFunc_spec {type : ScriptType} {number : Nat} (h : serviceFunc socket number = some type) :
    scriptTypes[number]? = some type ∧ typeToSocketIndex type = some socket := by
  obtain ⟨hget, hsocket⟩ := Option.filter_eq_some_iff.1 h
  exact ⟨hget, of_decide_eq_true hsocket⟩

theorem service_of_reachable (h : scriptService.Reachable s) : SystemInv (fun _ _ _ _ => True) s := by
  refine .of_reach (h.mono fun s a _ => ?_)
  cases a with
  | server socket a => exact fun _ _ _ _ _ _ _ _ _ _ => trivial
  | connect | connectOther | client | otherWrites | otherReads | otherCloses | accept => trivial

/-- In every run a service function runs only on the socket of its type, for a head that has been found valid, on a body of
the full size with zeros behind the bytes that the head announces; and of the functions of one socket, one at a time. -/
theorem service_runs_one_at_a_time (h : scriptService.Reachable s) {type : ScriptType} {head : ScriptDataHead}
    {body : List Byte} (hconn : s.conn c = some conn) (hcalling : conn.server = .calling type head body) :
    (head.magic = scriptMagic ∧ head.response = 0 ∧ scriptTypes[head.type.toNat]? = some type ∧
      typeToSocketIndex type = some conn.socket) ∧
    (head.length.toNat ≤ requestBodySize ∧ body.length = requestBodySize ∧
      body.drop head.length.toNat = List.replicate (requestBodySize - head.length.toNat) 0) ∧
    ∀ c' conn' type' head' body', s.conn c' = some conn' → conn'.server = .calling type' head' body' →
      typeToSocketIndex type' = typeToSocketIndex type → c' = c := by
  have hinv := service_of_reachable h
  obtain ⟨hvalid, hfunc, got, hlength, rfl⟩ := (hinv.service c conn hconn).calling type head body hcalling
  obtain ⟨hmagic, hresponse, -, hfits⟩ := checkHeadValid_eq_success hvalid
  obtain ⟨hget, hsocket⟩ := serviceFunc_spec hfunc
  refine ⟨⟨hmagic, hresponse, hget, hsocket⟩, ⟨hfits, ?_, ?_⟩, ?_⟩
  · rw [paddedBody, List.length_append, List.length_replicate]
    omega
  · rw [paddedBody, ← hlength, List.drop_left]
  · intro c' conn' type' head' body' hconn' hcalling' hsame
    obtain ⟨-, hfunc', -⟩ := (hinv.service c' conn' hconn').calling type' head' body' hcalling'
    have hserving := hinv.atWork c conn hconn (by rw [hcalling]; rfl)
    have hserving' := hinv.atWork c' conn' hconn' (by rw [hcalling']; rfl)
    rw [(serviceFunc_spec hfunc').2, hsocket, Option.some.injEq] at hsame
    rw [hsame, hserving] at hserving'
    exact (Option.some.inj hserving').symm

/-- The daemon ends after the host was excluded only when the whole response has been written: the script that asked for it
has read it, or will. -/
theorem daemon_ends_after_answer (h : scriptService.Reachable s) (hexited : s.exited = true) :
    ∃ c conn a, s.conn c = some conn ∧ conn.answered = some a ∧ a.type = .setExcluded ∧
      (a.ret.len.toNat < wordLayout.size ∨ wordLayout.decode (a.ret.body.take wordLayout.size) = 0) ∧
      ∀ call pc, conn.caller = some (call, pc) → ∀ got ∈ clientGot pc, got ++ conn.down = a.message := by
  obtain ⟨c, conn, a, hconn, -, hanswered, hends, hdelivered⟩ := (service_of_reachable h).ended hexited
  unfold checkAfterSetExcluded at hends
  simp only [Bool.and_eq_true, Bool.or_eq_true, decide_eq_true_eq] at hends
  exact ⟨c, conn, a, hconn, hanswered, hends.1, hends.2, hdelivered⟩

/-! ## A call that excludes the host -/

def setExcludedCall : ScriptCall where
  type := .setExcluded
  socket := .other
  reqBody := []
  resLen := BitVec.ofNat 32 responseBodySize
  socket_eq := rfl
  length_le := Nat.zero_le _
  resLen_lt := by decide

/-- The status of the function and that in its response are success. -/
def excludedReturn : ServiceReturn where
  status := 0
  len := 4
  body := List.replicate responseBodySize 0
  length_body := List.length_replicate
  len_le := by decide

/-- The request, read in two parts. -/
def excludedRequest (c : Nat) : List ScriptAction :=
  [.connect c setExcludedCall, .client c (.write 16), .client c .proceed, .client c .proceed, .accept .other,
    .server .other (.read 10), .server .other (.read 6), .server .other .proceed, .server .other .proceed]

/-- The response, written in two parts, and read. -/
def excludedResponse : List ScriptAction :=
  [.server .other (.returns excludedReturn), .server .other (.write 3), .server .other (.write 17), .server .other .proceed,
    .client 0 (.read 16), .client 0 .proceed]

/-- The request of another program, whose function fails. -/
def poolStateRequest : List ScriptAction :=
  [.connectOther 0 .other, .otherWrites 0 (scriptHeadLayout.encode ⟨scriptMagic, 0, ScriptType.setPoolState.number, 4⟩),
    .otherWrites 0 [1, 2, 3, 4], .accept .other, .server .other (.read 16), .server .other .proceed, .server .other (.read 3),
    .server .other (.read 1), .server .other .proceed, .server .other (.returns { excludedReturn with status := 1 })]

/-- Before the first request the buffers are not clear. -/
def scriptStart : ScriptState := .initial fun _ => List.replicate requestBodySize 255

theorem scriptService_init_start : scriptService.init scriptStart := ⟨_, rfl⟩

/-- The functions return what this one returns. -/
def excludedOk (_ : ScriptState) : ScriptAction → Prop
  | .server _ (.returns ret) => ret.len = 4
  | _ => True

instance (s : ScriptState) : ∀ a, Decidable (excludedOk s a)
  | .server _ (.returns ret) => inferInstanceAs (Decidable (ret.len = 4))
  | .server _ (.read _) | .server _ (.write _) | .server _ .proceed | .server _ .fail | .connect .. | .connectOther ..
  | .client .. | .otherWrites .. | .otherReads .. | .otherCloses .. | .accept .. => inferInstanceAs (Decidable True)

/-- A function runs behind one that had something in the buffer. -/
theorem service_runs_one_at_a_time_of_one : ∃ s conn type head body, scriptService.Reachable s ∧
    ((s.conn 0).any fun conn => conn.answered.any fun a => a.reqBody.take 4 = [1, 2, 3, 4]) = true ∧ s.conn 1 = some conn ∧
      conn.server = .calling type head body ∧ typeToSocketIndex type = some conn.socket ∧
        body.drop head.length.toNat = List.replicate (requestBodySize - head.length.toNat) 0 := by
  have hrun : ∃ s, scriptService.Reachable s ∧
      (((s.conn 0).any fun conn => conn.answered.any fun a => a.reqBody.take 4 = [1, 2, 3, 4]) &&
        (s.conn 1).any fun conn => match conn.server with
          | .calling .. => true
          | _ => false) = true :=
    Machine.reach_of_check scriptService_init_start (poolStateRequest ++ excludedRequest 1) _ (by decide +kernel)
  obtain ⟨s, hs, hp⟩ := hrun
  obtain ⟨hbefore, hp⟩ := Bool.and_eq_true_iff.1 hp
  obtain ⟨conn, hconn, hcalling⟩ := (Option.any_eq_true _ _).1 hp
  cases hserver : conn.server with
  | calling type head body =>
    obtain ⟨⟨-, -, -, hsocket⟩, ⟨-, -, hzeros⟩, -⟩ := service_runs_one_at_a_time hs hconn hserver
    exact ⟨s, conn, type, head, body, hs, hbefore, hconn, hserver, hsocket, hzeros⟩
  | queued | head | body | writing | closed =>
    rw [hserver] at hcalling
    cases hcalling

theorem daemon_ends_after_answer_of_one : ∃ s, scriptService.Reachable s ∧ s.exited = true ∧
    ∃ c conn a, s.conn c = some conn ∧ conn.answered = some a ∧ a.type = .setExcluded := by
  have hrun : ∃ s, scriptService.Reachable s ∧ s.exited = true :=
    Machine.reach_of_check scriptService_init_start (excludedRequest 0 ++ excludedResponse) _ (by decide +kernel)
  obtain ⟨s, hs, hexited⟩ := hrun
  obtain ⟨c, conn, a, hconn, hanswered, htype, -⟩ := daemon_ends_after_answer hs hexited
  exact ⟨s, hs, hexited, c, conn, a, hconn, hanswered, htype⟩

/-- The call has come back with success. -/
def ScriptConnection.succeeded (conn : ScriptConnection) : Bool :=
  conn.caller.any fun e => match e.2 with
    | .returned .success .. => true
    | _ => false

theorem ScriptConnection.exists_of_succeeded (h : conn.succeeded = true) :
    ∃ call len bytes, conn.caller = some (call, .returned .success len bytes) := by
  obtain ⟨⟨call, pc⟩, hcaller, hpc⟩ := (Option.any_eq_true _ _).1 h
  cases pc with
  | returned status len bytes =>
    cases status with
    | success => exact ⟨call, len, bytes, hcaller⟩
    | writeError | readError | improperData => cases hpc
  | writingHead | writingBody | readingHead | readingBody => cases hpc

theorem script_call_returns_of_one : ∃ s conn call len bytes, scriptService.Reach (ServiceOk fun _ _ _ ret => ret.len = 4) s ∧
    s.conn 0 = some conn ∧ conn.caller = some (call, .returned .success len bytes) ∧ len = 4 ∧ bytes.length = 4 := by
  have hrun : ∃ s, scriptService.Reach excludedOk s ∧ (s.conn 0).any (·.succeeded) = true :=
    Machine.reach_of_check scriptService_init_start (excludedRequest 0 ++ excludedResponse ++ [.client 0 (.read 4), .client 0 .proceed]) _
      (by decide +kernel)
  obtain ⟨s, hs, hp⟩ := hrun
  obtain ⟨conn, hconn, hback⟩ := (Option.any_eq_true _ _).1 hp
  have hok : scriptService.Reach (ServiceOk fun _ _ _ ret => ret.len = 4) s := by
    refine hs.mono fun s a hok => ?_
    cases a with
    | server socket a =>
      rintro c conn - - type head body ret - rfl
      exact hok
    | connect | connectOther | client | otherWrites | otherReads | otherCloses | accept => trivial
  obtain ⟨call, len, bytes, hcaller⟩ := ScriptConnection.exists_of_succeeded hback
  obtain ⟨ret, hret, -, hlen, hbytes, -⟩ := (script_call_returns hok hconn hcaller).1 rfl
  refine ⟨s, conn, call, len, bytes, hok, hconn, hcaller, hlen.trans hret, ?_⟩
  rw [hbytes, ret.length_take, hret]
  rfl

end Xha
