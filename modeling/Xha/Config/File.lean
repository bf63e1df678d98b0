/-
The configuration file (config.c): `interpret_config_file` over any document. An element is what the walk
reads of it: its name, the text of its children and its child elements. The XML parser and `getaddrinfo`
are not part of the daemon: the document is the parser's, the address lookup a parameter.
-/
import Xha.Weight.File
import Xha.Lib.CString

namespace Xha

open CString

/-! ## Documents -/

/-- `xmlNode`: `txt` is what `xmlNodeListGetString` returns for its children. -/
structure XmlNode where
  name : String
  txt : Option CString
  children : List XmlNode

/-- A document with a root element; `version` is the attribute of the root. -/
structure XmlDoc where
  root : XmlNode
  version : Option CString

/-- What `stat` and the parser make of the path. -/
inductive ConfigFile
  | notFound | invalidXml | noRoot
  | document (doc : XmlDoc)

/-- What `getaddrinfo` finds for a numeric address. -/
inductive AddrInfo
  | inet (addr : BitVec 32)
  | inet6 (addr : BitVec 128)
  | other

/-! ## `HA_CONFIG` -/

/-- The status codes of mtcerrno.def: they are not negative. -/
abbrev MtcStatus := Int

def mtcSuccess : MtcStatus := 0
def mtcErrorCfInvalidFormat : MtcStatus := 1201
def mtcErrorCfOpen : MtcStatus := 1202

/-- `MTC_UUID_SIZE`. -/
def mtcUuidSize : Nat := 32

/-- An identifier that nothing has been written to. -/
def mtcUuidCleared : MtcUuid := List.replicate mtcUuidSize '\x00'

/-- `UUID_comp`. -/
def uuidComp (x y : MtcUuid) : Ordering := strncasecmp mtcUuidSize x y

theorem uuidComp_self (x : MtcUuid) : uuidComp x x = .eq := (strncasecmp_eq _ _ _).mpr rfl

def heartbeatInterfaceLen : Nat := 64
def statefilePathLen : Nat := 4096 + 1
def watchdogModeLen : Nat := 16

/-- `socket_address`: family and address. -/
inductive SocketAddress
  | unset
  | inet (addr : BitVec 32)
  | inet6 (addr : BitVec 128)
  deriving DecidableEq

/-- `HA_CONFIG_HOST_INFO`. -/
structure HaConfigHostInfo where
  hostId : MtcUuid
  sockAddress : SocketAddress
  deriving DecidableEq

/-- A slot of the host table that nothing has been written to. -/
def HaConfigHostInfo.cleared : HaConfigHostInfo := ⟨mtcUuidCleared, .unset⟩

/-- The numeric parameters, in the order of `tbl`. -/
inductive Parameter
  | heartbeatInterval | heartbeatTimeout | statefileInterval | statefileTimeout
  | heartbeatWatchdogTimeout | statefileWatchdogTimeout | bootJoinTimeout | enableJoinTimeout
  | xapiHealthcheckInterval | xapiHealthcheckTimeout | xapiRestartAttempts | xapiRestartTimeout
  | xapiLicensecheckTimeout
  deriving DecidableEq

/-- The element that sets a parameter. -/
def Parameter.name : Parameter → String
  | heartbeatInterval => "HeartbeatInterval"
  | heartbeatTimeout => "HeartbeatTimeout"
  | statefileInterval => "StateFileInterval"
  | statefileTimeout => "StateFileTimeout"
  | heartbeatWatchdogTimeout => "HeartbeatWatchdogTimeout"
  | statefileWatchdogTimeout => "StateFileWatchdogTimeout"
  | bootJoinTimeout => "BootJoinTimeout"
  | enableJoinTimeout => "EnableJoinTimeout"
  | xapiHealthcheckInterval => "XapiHealthCheckInterval"
  | xapiHealthcheckTimeout => "XapiHealthCheckTimeout"
  | xapiRestartAttempts => "XapiRestartAttempts"
  | xapiRestartTimeout => "XapiRestartTimeout"
  | xapiLicensecheckTimeout => "XapiLicenseCheckTimeout"

/-- `tbl` of `walk_parameters_config`. -/
def Parameter.tbl : List Parameter :=
  [heartbeatInterval, heartbeatTimeout, statefileInterval, statefileTimeout, heartbeatWatchdogTimeout,
    statefileWatchdogTimeout, bootJoinTimeout, enableJoinTimeout, xapiHealthcheckInterval, xapiHealthcheckTimeout,
    xapiRestartAttempts, xapiRestartTimeout, xapiLicensecheckTimeout]

/-- `set_default_value`. -/
def Parameter.defaultValue : Parameter → MtcU32
  | heartbeatInterval => 4
  | heartbeatTimeout => 30
  | statefileInterval => 4
  | statefileTimeout => 30
  | heartbeatWatchdogTimeout => 30
  | statefileWatchdogTimeout => 45
  | bootJoinTimeout => 90
  | enableJoinTimeout => 90
  | xapiHealthcheckInterval => 60
  | xapiHealthcheckTimeout => 10
  | xapiRestartAttempts => 1
  | xapiRestartTimeout => 30
  | xapiLicensecheckTimeout => 30

/-- `HA_CONFIG_COMMON`: the slots of `host` below `hostnum`; those above are cleared. -/
structure HaConfigCommon where
  generationUuid : MtcUuid
  udpPort : MtcU32
  host : List HaConfigHostInfo
  parameter : Parameter → MtcU32
  hostnum_le : host.length ≤ maxHostNum

namespace HaConfigCommon

def hostnum (c : HaConfigCommon) : Nat := c.host.length

/-- A static `HA_CONFIG` after `set_default_value`. -/
def initial : HaConfigCommon where
  generationUuid := mtcUuidCleared
  udpPort := 0
  host := []
  parameter := Parameter.defaultValue
  hostnum_le := Nat.zero_le _

/-- The `host_id` of each configured host. -/
def hostIds (c : HaConfigCommon) : List MtcUuid := c.host.map (·.hostId)

/-- A slot of the table of `MAX_HOST_NUM` hosts. -/
def hostInfo (c : HaConfigCommon) (index : Nat) : HaConfigHostInfo := c.host.getD index .cleared

end HaConfigCommon

/-- `HA_CONFIG_LOCAL`. -/
structure HaConfigLocal where
  localhostIndex : MtcU32
  heartbeatInterface : List Char
  heartbeatPhysicalInterface : List Char
  statefilePath : List Char
  watchdogMode : List Char

/-- A static `HA_CONFIG` after `interpret_config_file` has poisoned the index. -/
def HaConfigLocal.initial : HaConfigLocal := ⟨-1, [], [], [], []⟩

/-- `HA_CONFIG`. -/
structure HaConfigData where
  version : List Char
  common : HaConfigCommon
  localConfig : HaConfigLocal

/-! ## Texts -/

/-- `VALID_VERSION_STRING`. -/
def validVersionString : List Char := ['1', '.', '0']

/-- `valid_version`. -/
def validVersion (version : CString) : Bool := version.chars.length < 8 && version.chars = validVersionString

/-- The copying loop of `uuid_strcpy`, and whether the text was too long. -/
def packUuid (packedUuid : List Char) : List Char → Bool × List Char
  | [] => (false, packedUuid)
  | src :: rest =>
    if src = '-' then packUuid packedUuid rest
    else if packedUuid.length < mtcUuidSize then packUuid (packedUuid ++ [src]) rest
    else (true, packedUuid)

/-- `uuid_strcpy`. -/
def uuidStrcpy (uuid : CString) : MtcStatus × MtcUuid :=
  match packUuid [] uuid.chars with
  | (true, packedUuid) => (mtcErrorCfInvalidFormat, packedUuid)
  | (false, packedUuid) =>
    if packedUuid.length < mtcUuidSize then
      (mtcErrorCfInvalidFormat, packedUuid ++ List.replicate (mtcUuidSize - packedUuid.length) '\x00')
    else (mtcSuccess, packedUuid)

/-- `strtol(str, &endptr, 10)`: the number, and the text from `endptr` on. -/
def strtol (str : List Char) : Int × List Char :=
  let rest := str.dropWhile isSpace
  let negative := rest.head? = some '-'
  let digits := if rest.head? = some '-' ∨ rest.head? = some '+' then rest.tail else rest
  match scanDigits negative digits with
  | some n => (n, digits.dropWhile Char.isDigit)
  | none => (0, str)

/-- A text copied into an array of `len` characters. -/
def copyText (len : Nat) (txt : CString) : List Char :=
  if txt.chars.length < len then txt.chars else txt.chars.take (len - 1)

/-- `host_info_compar`. -/
def hostInfoCompar (h1 h2 : HaConfigHostInfo) : Ordering := strncmp mtcUuidSize h1.hostId h2.hostId

/-! ## The walk -/

/-- The turn of `walk_host_config` for a child of a `host` element. The codes of `uuid_strcpy` are not
negative, so no HostID is refused here. -/
def hostElement (getaddrinfo : CString → Option AddrInfo) (info : HaConfigHostInfo) (sub : XmlNode) :
    Except MtcStatus HaConfigHostInfo :=
  if sub.name = "HostID" then
    match sub.txt with
    | none => .error mtcErrorCfInvalidFormat
    | some txt =>
      let (ret, hostId) := uuidStrcpy txt
      if ret < 0 then .error mtcErrorCfInvalidFormat else .ok { info with hostId }
  else if sub.name = "IPaddress" then
    match sub.txt with
    | none => .error mtcErrorCfInvalidFormat
    | some txt =>
      match getaddrinfo txt with
      | some (.inet addr) => .ok { info with sockAddress := .inet addr }
      | some (.inet6 addr) => .ok { info with sockAddress := .inet6 addr }
      | some .other | none => .error mtcErrorCfInvalidFormat
  else .ok info

/-- `walk_host_config`. -/
def walkHostConfig (getaddrinfo : CString → Option AddrInfo) (c : HaConfigCommon) (cur : XmlNode) :
    Except MtcStatus HaConfigCommon :=
  if h : maxHostNum ≤ c.hostnum then .error mtcErrorCfInvalidFormat
  else
    (cur.children.foldlM (hostElement getaddrinfo) .cleared).map fun info =>
      { c with
        host := c.host ++ [info]
        hostnum_le := by rw [List.length_append, List.length_singleton]; exact Nat.lt_of_not_le h }

/-- The turn of `walk_parameters_config` for a child of a `parameters` element. -/
def parameterElement (c : HaConfigCommon) (sub : XmlNode) : Except MtcStatus HaConfigCommon :=
  match Parameter.tbl.find? fun p => sub.name = p.name with
  | none => .ok c
  | some p =>
    match sub.txt with
    | none => .error mtcErrorCfInvalidFormat
    | some txt =>
      let (value, endptr) := strtol txt.chars
      if endptr ≠ [] then .error mtcErrorCfInvalidFormat
      else .ok { c with parameter := Function.update c.parameter p (BitVec.ofInt 32 value) }

/-- `walk_parameters_config`. -/
def walkParametersConfig (c : HaConfigCommon) (cur : XmlNode) : Except MtcStatus HaConfigCommon :=
  cur.children.foldlM parameterElement c

/-- The turn of `walk_common_config` for a child of a `common-config` element. -/
def commonElement (getaddrinfo : CString → Option AddrInfo) (c : HaConfigCommon) (sub : XmlNode) :
    Except MtcStatus HaConfigCommon :=
  if sub.name = "GenerationUUID" then
    match sub.txt with
    | none => .error mtcErrorCfInvalidFormat
    | some txt =>
      let (ret, generationUuid) := uuidStrcpy txt
      if ret ≠ mtcSuccess then .error mtcErrorCfInvalidFormat else .ok { c with generationUuid }
  else if sub.name = "UDPport" then
    match sub.txt with
    | none => .error mtcErrorCfInvalidFormat
    | some txt =>
      let (value, endptr) := strtol txt.chars
      let udpPort := BitVec.ofInt 32 value
      if endptr ≠ [] ∨ udpPort = 0 then .error mtcErrorCfInvalidFormat else .ok { c with udpPort }
  else if sub.name = "host" then walkHostConfig getaddrinfo c sub
  else if sub.name = "parameters" then walkParametersConfig c sub
  else .ok c

/-- The `qsort` of `walk_common_config`. -/
def HaConfigCommon.sortHosts (c : HaConfigCommon) : HaConfigCommon :=
  { c with
    host := c.host.mergeSort fun h1 h2 => hostInfoCompar h1 h2 ≠ .gt
    hostnum_le := by rw [List.length_mergeSort]; exact c.hostnum_le }

/-- `walk_common_config`. -/
def walkCommonConfig (getaddrinfo : CString → Option AddrInfo) (c : HaConfigCommon) (cur : XmlNode) :
    Except MtcStatus HaConfigCommon :=
  (cur.children.foldlM (commonElement getaddrinfo) c).map HaConfigCommon.sortHosts

/-- The turn of `walk_localhost` for a child of a `localhost` element. For a long physical interface the
source terminates `heartbeat_interface` instead, at its last character, which is zero anyway. -/
def localhostElement (c : HaConfigCommon) (l : HaConfigLocal) (sub : XmlNode) : Except MtcStatus HaConfigLocal :=
  if sub.name = "HostID" then
    match sub.txt with
    | none => .error mtcErrorCfInvalidFormat
    | some txt =>
      let (ret, hostId) := uuidStrcpy txt
      if ret ≠ mtcSuccess then .error mtcErrorCfInvalidFormat
      else
        match c.host.findIdx? fun info => strncmp mtcUuidSize hostId info.hostId = .eq with
        | some i => .ok { l with localhostIndex := BitVec.ofNat 32 i }
        | none => .error mtcErrorCfInvalidFormat
  else
    let text (set : List Char → HaConfigLocal) (len : Nat) : Except MtcStatus HaConfigLocal :=
      match sub.txt with
      | none => .error mtcErrorCfInvalidFormat
      | some txt => .ok (set (copyText len txt))
    if sub.name = "HeartbeatInterface" then text (fun s => { l with heartbeatInterface := s }) heartbeatInterfaceLen
    else if sub.name = "HeartbeatPhysicalInterface" then
      text (fun s => { l with heartbeatPhysicalInterface := s }) heartbeatInterfaceLen
    else if sub.name = "StateFile" then text (fun s => { l with statefilePath := s }) statefilePathLen
    else if sub.name = "WatchdogMode" then text (fun s => { l with watchdogMode := s }) watchdogModeLen
    else .ok l

/-- `walk_localhost`. -/
def walkLocalhost (c : HaConfigCommon) (l : HaConfigLocal) (cur : XmlNode) : Except MtcStatus HaConfigLocal :=
  cur.children.foldlM (localhostElement c) l

/-- `walk_local_config`. -/
def walkLocalConfig (c : HaConfigCommon) (l : HaConfigLocal) (cur : XmlNode) : Except MtcStatus HaConfigLocal :=
  cur.children.foldlM (fun l sub => if sub.name = "localhost" then walkLocalhost c l sub else .ok l) l

/-- The turn of `interpret_config_file` for a child of the root. -/
def rootElement (getaddrinfo : CString → Option AddrInfo) (c : HaConfigData) (sub : XmlNode) :
    Except MtcStatus HaConfigData :=
  if sub.name = "common-config" then
    (walkCommonConfig getaddrinfo c.common sub).map fun common => { c with common }
  else if sub.name = "local-config" then
    (walkLocalConfig c.common c.localConfig sub).map fun localConfig => { c with localConfig }
  else .ok c

/-- `valid_config`. -/
def validConfig (c : HaConfigData) : Bool :=
  c.common.generationUuid.headD '\x00' ≠ '\x00' && c.common.udpPort ≠ 0 && c.common.hostnum ≠ 0 &&
    c.localConfig.heartbeatInterface.headD '\x00' ≠ '\x00' && c.localConfig.statefilePath.headD '\x00' ≠ '\x00' &&
    c.localConfig.localhostIndex.toNat < maxHostNum

/-- `interpret_config_file`. -/
def interpretConfigFile (getaddrinfo : CString → Option AddrInfo) (file : ConfigFile) :
    Except MtcStatus HaConfigData :=
  match file with
  | .notFound => .error mtcErrorCfOpen
  | .invalidXml | .noRoot => .error mtcErrorCfInvalidFormat
  | .document doc =>
    if doc.root.name ≠ "xhad-config" then .error mtcErrorCfInvalidFormat
    else
      match doc.version with
      | none => .error mtcErrorCfInvalidFormat
      | some version =>
        if !validVersion version then .error mtcErrorCfInvalidFormat
        else
          match doc.root.children.foldlM (rootElement getaddrinfo) ⟨version.chars, .initial, .initial⟩ with
          | .error ret => .error ret
          | .ok c => if validConfig c then .ok c else .error mtcErrorCfInvalidFormat

end Xha
