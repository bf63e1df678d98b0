/-
The calls of the scripts to the daemon (calldaemon.c, sc_sv.c): a script connects to one of three sockets, writes the head
and the body of its request and reads those of the response; behind each socket a thread accepts one connection after
the other, reads a request, and runs the service function of its type. Reads and writes take as many bytes as they get.
-/
import Xha.Lib.Transition
import Xha.StateFile.Format

namespace Xha

open Transition Region

/-! ## Messages -/

/-- `SCRIPT_TYPE_*`. -/
inductive ScriptType
  | base | queryLiveset | proposeMaster | disarmFencing | setPoolState | setExcluded | clearExcluded | pid | hoststate
  | cancelMaster | getlogmask | setlogmask | resetlogmask | dumpcom | buildid | privatelog | fist | reloadHostWeight
  deriving DecidableEq

/-- The types by their numbers. -/
def scriptTypes : List ScriptType :=
  [.base, .queryLiveset, .proposeMaster, .disarmFencing, .setPoolState, .setExcluded, .clearExcluded, .pid, .hoststate,
    .cancelMaster, .getlogmask, .setlogmask, .resetlogmask, .dumpcom, .buildid, .privatelog, .fist, .reloadHostWeight]

def scriptTypeNum : Nat := scriptTypes.length

def ScriptType.number (type : ScriptType) : MtcU32 := BitVec.ofNat 32 (scriptTypes.idxOf type)

/-- `SCRIPT_SOCK_INDEX_FOR_*`. -/
inductive ScriptSocket
  | other | query | internal
  deriving DecidableEq

/-- `SCRIPT_SOCKET_TABLE_INITIALIZER`; the base type has no socket. -/
def typeToSocketIndex : ScriptType → Option ScriptSocket
  | .base => none
  | .queryLiveset => some .query
  | .proposeMaster => some .other
  | .disarmFencing => some .other
  | .setPoolState => some .other
  | .setExcluded => some .other
  | .clearExcluded => some .other
  | .pid => some .internal
  | .hoststate => some .query
  | .cancelMaster => some .other
  | .getlogmask => some .internal
  | .setlogmask => some .internal
  | .resetlogmask => some .internal
  | .dumpcom => some .internal
  | .buildid => some .internal
  | .privatelog => some .internal
  | .fist => some .internal
  | .reloadHostWeight => some .internal

/-- The type whose service function stands in the table of the thread of a socket, as `create_threads` fills it. -/
def serviceFunc (socket : ScriptSocket) (type : Nat) : Option ScriptType :=
  scriptTypes[type]?.filter fun t => typeToSocketIndex t = some socket

/-- `SCRIPT_DATA_HEAD`. -/
structure ScriptDataHead where
  magic : MtcU32
  response : MtcU32
  type : MtcU32
  length : MtcU32
  deriving DecidableEq

def scriptHeadLayout : Layout Byte ScriptDataHead :=
  (wordLayout.prod (wordLayout.prod (wordLayout.prod wordLayout))).map
    { toFun := fun ⟨magic, response, type, length⟩ => ⟨magic, response, type, length⟩
      invFun := fun head => ⟨head.magic, head.response, head.type, head.length⟩ }

def scriptMagic : MtcU32 := 0xFAFBFCFD

/-- The size of the largest request body, that of `fist`. -/
def requestBodySize : Nat := 68

/-- The size of the largest response body, that of `query_liveset`: 22 words, and for each of 64 hosts 1192 bytes. -/
def responseBodySize : Nat := 22 * 4 + 64 * 1192

/-- `MTC_SUCCESS` and the errors of the calls. -/
inductive ScriptStatus
  | success | writeError | readError | improperData
  deriving DecidableEq

def checkHeadValid (head : ScriptDataHead) : ScriptStatus :=
  if head.magic ≠ scriptMagic then .improperData
  else if head.response ≠ 0 then .improperData
  else if scriptTypeNum ≤ head.type.toNat then .improperData
  else if requestBodySize < head.length.toNat then .improperData
  else .success

/-- What a service function returns: its status, and in the response buffer a body of some length. -/
structure ServiceReturn where
  status : MtcU32
  len : MtcU32
  body : List Byte
  length_body : body.length = responseBodySize
  len_le : len.toNat ≤ responseBodySize

/-- A run of a service function: what it was passed and what it returned. -/
structure ScriptAnswer where
  type : ScriptType
  reqLen : MtcU32
  reqBody : List Byte
  ret : ServiceReturn

def ScriptAnswer.head (a : ScriptAnswer) : ScriptDataHead := ⟨scriptMagic, 1, a.type.number, a.ret.len⟩

/-- The response; there is none when the function fails. -/
def ScriptAnswer.message (a : ScriptAnswer) : List Byte :=
  if a.ret.status = 0 then scriptHeadLayout.encode a.head ++ a.ret.body.take a.ret.len.toNat else []

/-- `script_service_check_after_set_excluded`: whether the process ends, with an answer that the host is excluded or at the
failed assertion. -/
def checkAfterSetExcluded (a : ScriptAnswer) : Bool :=
  a.type = .setExcluded && (a.ret.len.toNat < wordLayout.size || wordLayout.decode (a.ret.body.take wordLayout.size) = 0)

/-! ## The script -/

/-- The arguments of `script_call_daemon`: its type has a socket, the request body fits, and the length of the response
buffer is an `int`. -/
structure ScriptCall where
  type : ScriptType
  socket : ScriptSocket
  reqBody : List Byte
  resLen : MtcU32
  socket_eq : typeToSocketIndex type = some socket
  length_le : reqBody.length ≤ requestBodySize
  resLen_lt : resLen.toNat < 2 ^ 31

def ScriptCall.reqLen (call : ScriptCall) : MtcU32 := BitVec.ofNat 32 call.reqBody.length

def ScriptCall.head (call : ScriptCall) : ScriptDataHead := ⟨scriptMagic, 0, call.type.number, call.reqLen⟩

/-- Where `script_call_daemon` stands: in one of its loops, with what is left to write or what it has read; or back, with
its status, the length it sets and what it has read of the body. -/
inductive ClientPc
  | writingHead (rest : List Byte)
  | writingBody (rest : List Byte)
  | readingHead (got : List Byte)
  | readingBody (head : ScriptDataHead) (got : List Byte)
  | returned (status : ScriptStatus) (resLen : MtcU32) (resBody : List Byte)

/-- `write` or `read` of some bytes, the end of a loop, or an error or the end of the stream. -/
inductive ClientAction
  | write (n : Nat)
  | read (n : Nat)
  | proceed
  | fail

/-! ## The service -/

/-- Where the thread of a socket stands with a connection. -/
inductive ServerPc
  | queued
  | head (got : List Byte)
  | body (head : ScriptDataHead) (got : List Byte)
  | calling (type : ScriptType) (head : ScriptDataHead) (body : List Byte)
  | writing (answer : ScriptAnswer) (rest : List Byte)
  | closed

/-- `read` or `write` of some bytes, the end of a loop, the return of a service function, or a timeout, an error or the end
of the stream. -/
inductive ServerAction
  | read (n : Nat)
  | write (n : Nat)
  | proceed
  | returns (ret : ServiceReturn)
  | fail

/-- A connection: its socket, the script at its other end if that runs `script_call_daemon`, the bytes on their way to the
service and back, and the run of a service function for it. -/
structure ScriptConnection where
  socket : ScriptSocket
  caller : Option (ScriptCall × ClientPc)
  up : List Byte
  down : List Byte
  clientClosed : Bool
  server : ServerPc
  answered : Option ScriptAnswer

/-- The request body of a thread, behind the `memset` before a connection is accepted. -/
def clearedRequest : List Byte := List.replicate requestBodySize 0

/-- Whether a call takes `n` bytes: at least one, at most those there are and those asked for. -/
def takes (n there asked : Nat) : Bool := 0 < n && n ≤ there && n ≤ asked

def clientNext (conn : ScriptConnection) (call : ScriptCall) : ClientPc → ClientAction → Option ScriptConnection
  | .writingHead rest, .write n =>
    if takes n rest.length rest.length then
      some { conn with up := conn.up ++ rest.take n, caller := some (call, .writingHead (rest.drop n)) }
    else none
  | .writingHead [], .proceed => some { conn with caller := some (call, .writingBody call.reqBody) }
  | .writingBody rest, .write n =>
    if takes n rest.length rest.length then
      some { conn with up := conn.up ++ rest.take n, caller := some (call, .writingBody (rest.drop n)) }
    else none
  | .writingBody [], .proceed => some { conn with caller := some (call, .readingHead []) }
  | .readingHead got, .read n =>
    if takes n conn.down.length (scriptHeadLayout.size - got.length) then
      some { conn with down := conn.down.drop n, caller := some (call, .readingHead (got ++ conn.down.take n)) }
    else none
  | .readingHead got, .proceed =>
    if got.length = scriptHeadLayout.size then
      let head := scriptHeadLayout.decode got
      -- the socket is left open
      if call.resLen < head.length then some { conn with caller := some (call, .returned .improperData head.length []) }
      else some { conn with caller := some (call, .readingBody head []) }
    else none
  | .readingBody head got, .read n =>
    if takes n conn.down.length (head.length.toNat - got.length) then
      some { conn with down := conn.down.drop n, caller := some (call, .readingBody head (got ++ conn.down.take n)) }
    else none
  | .readingBody head got, .proceed =>
    if got.length = head.length.toNat then
      some { conn with clientClosed := true, caller := some (call, .returned .success head.length got) }
    else none
  | .writingHead _, .fail | .writingBody _, .fail =>
    some { conn with clientClosed := true, caller := some (call, .returned .writeError call.resLen []) }
  | .readingHead _, .fail =>
    some { conn with clientClosed := true, caller := some (call, .returned .readError call.resLen []) }
  | .readingBody head got, .fail =>
    some { conn with clientClosed := true, caller := some (call, .returned .readError head.length got) }
  | _, _ => none

/-- The thread of a socket goes on with a connection; `request` is the request body in its buffer. -/
def serverNext (request : List Byte) (conn : ScriptConnection) : ServerPc → ServerAction → Option ScriptConnection
  | .head got, .read n =>
    if takes n conn.up.length (scriptHeadLayout.size - got.length) then
      some { conn with up := conn.up.drop n, server := .head (got ++ conn.up.take n) }
    else none
  | .head got, .proceed =>
    if got.length = scriptHeadLayout.size then
      let head := scriptHeadLayout.decode got
      if checkHeadValid head = .success then some { conn with server := .body head [] }
      else some { conn with server := .closed }
    else none
  | .body head got, .read n =>
    if takes n conn.up.length (head.length.toNat - got.length) then
      some { conn with up := conn.up.drop n, server := .body head (got ++ conn.up.take n) }
    else none
  | .body head got, .proceed =>
    if got.length = head.length.toNat then
      match serviceFunc conn.socket head.type.toNat with
      | none => some { conn with server := .closed }
      | some type => some { conn with server := .calling type head request }
    else none
  | .calling type head body, .returns ret =>
    let answer : ScriptAnswer := ⟨type, head.length, body, ret⟩
    if ret.status = 0 then some { conn with server := .writing answer answer.message, answered := some answer }
    else some { conn with server := .closed, answered := some answer }
  | .writing answer rest, .write n =>
    if takes n rest.length rest.length && !conn.clientClosed then
      some { conn with down := conn.down ++ rest.take n, server := .writing answer (rest.drop n) }
    else none
  | .writing _ [], .proceed => some { conn with server := .closed }
  | .head _, .fail | .body .., .fail | .writing .., .fail => some { conn with server := .closed }
  | _, _ => none

/-- What a read of the body leaves in the buffer. -/
def fillRequest (request : List Byte) (conn : ScriptConnection) : ServerPc → ServerAction → List Byte
  | .body _ got, .read n => patch request got.length (conn.up.take n)
  | _, _ => request

/-! ## The system -/

/-- The connections made so far; for each socket those that wait to be accepted, and the one that its thread is at and the
request body in its buffer; and whether the daemon has ended after the host was excluded. -/
structure ScriptState where
  conn : Nat → Option ScriptConnection
  backlog : ScriptSocket → List Nat
  serving : ScriptSocket → Option Nat
  request : ScriptSocket → List Byte
  exited : Bool

/-- A script starts a call, another program connects, one of them or a thread of the service goes on. The other programs
write what they like. -/
inductive ScriptAction
  | connect (c : Nat) (call : ScriptCall)
  | connectOther (c : Nat) (socket : ScriptSocket)
  | client (c : Nat) (a : ClientAction)
  | otherWrites (c : Nat) (bytes : List Byte)
  | otherReads (c : Nat) (n : Nat)
  | otherCloses (c : Nat)
  | accept (socket : ScriptSocket)
  | server (socket : ScriptSocket) (a : ServerAction)

def ScriptState.setConn (s : ScriptState) (c : Nat) (conn : ScriptConnection) : ScriptState :=
  { s with conn := Function.update s.conn c (some conn) }

/-- A connection has come to a socket. -/
def ScriptState.arrive (s : ScriptState) (c : Nat) (socket : ScriptSocket) (caller : Option (ScriptCall × ClientPc)) :
    Option ScriptState :=
  if s.exited || (s.conn c).isSome then none
  else some { s.setConn c ⟨socket, caller, [], [], false, .queued, none⟩ with
    backlog := Function.update s.backlog socket (s.backlog socket ++ [c]) }

/-- The connection has been closed by the service. -/
def ServerPc.isClosed : ServerPc → Bool
  | .closed => true
  | _ => false

/-- A write to a connection that the service has closed is an error. -/
def ClientAction.open (s : ScriptState) (conn : ScriptConnection) : ClientAction → Bool
  | .write _ => !s.exited && !conn.server.isClosed
  | _ => true

/-- The response has been written, and the process ends. -/
def endsProcess : ServerPc → ServerAction → Bool
  | .writing answer [], .proceed => checkAfterSetExcluded answer
  | _, _ => false

def serviceNext (s : ScriptState) : ScriptAction → Option ScriptState
  | .connect c call => s.arrive c call.socket (some (call, .writingHead (scriptHeadLayout.encode call.head)))
  | .connectOther c socket => s.arrive c socket none
  | .client c a => do
    let conn ← s.conn c
    let (call, pc) ← conn.caller
    if a.open s conn then (clientNext conn call pc a).map (s.setConn c) else none
  | .otherWrites c bytes => do
    let conn ← s.conn c
    if conn.caller.isNone && !s.exited && !conn.server.isClosed && !conn.clientClosed then
      some (s.setConn c { conn with up := conn.up ++ bytes })
    else none
  | .otherReads c n => do
    let conn ← s.conn c
    if conn.caller.isNone then some (s.setConn c { conn with down := conn.down.drop n }) else none
  | .otherCloses c => do
    let conn ← s.conn c
    if conn.caller.isNone then some (s.setConn c { conn with clientClosed := true }) else none
  | .accept socket =>
    if s.exited || (s.serving socket).isSome then none
    else match s.backlog socket with
      | [] => none
      | c :: waiting => (s.conn c).map fun conn =>
        { s.setConn c { conn with server := .head [] } with
          backlog := Function.update s.backlog socket waiting
          serving := Function.update s.serving socket (some c)
          request := Function.update s.request socket clearedRequest }
  | .server socket a =>
    if s.exited then none
    else do
      let c ← s.serving socket
      let conn ← s.conn c
      let conn' ← serverNext (s.request socket) conn conn.server a
      return { s.setConn c conn' with
        serving := if conn'.server.isClosed then Function.update s.serving socket none else s.serving
        request := Function.update s.request socket (fillRequest (s.request socket) conn conn.server a)
        exited := endsProcess conn.server a }

/-- Nobody has connected, whatever is in the buffers. -/
def ScriptState.initial (request : ScriptSocket → List Byte) : ScriptState :=
  ⟨fun _ => none, fun _ => [], fun _ => none, request, false⟩

def scriptService : Machine ScriptState ScriptAction where
  init s := ∃ request, s = ScriptState.initial request
  next := serviceNext

end Xha
