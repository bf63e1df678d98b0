/-
The format of the State-File (statefile.h): the global section and the records of the hosts as they lie in memory and
on disk, each in a slot of its own. Both kinds begin with a signature, its inverse and a checksum over the words from
there up to the end marker.
-/
import Xha.Config.File
import Xha.StateFile.Io
import Xha.Lib.Layout
import Mathlib.Algebra.BigOperators.Group.List.Basic
import Mathlib.Data.BitVec

namespace Xha

open Region Layout

/-! ## Fields -/

def wordLayout : Layout Byte MtcU32 := littleEndian 4 32 (by norm_num)

/-- `MTC_HOSTMAP`: two words, the one with the lower bits first. -/
def hostMapLayout : Layout Byte HostMap := littleEndian 8 maxHostNum (by norm_num [maxHostNum])

/-- `MTC_UUID` as it is stored. -/
abbrev SfUuid := List.Vector Byte mtcUuidSize

def uuidLayout : Layout Byte SfUuid := (single : Layout Byte Byte).array mtcUuidSize

/-- The characters of an identifier. -/
def SfUuid.chars (uuid : SfUuid) : MtcUuid := uuid.1.map fun b => Char.ofNat b.toNat

/-- An array of `MTC_S32` with an element for each host. -/
abbrev SfTimes := List.Vector MtcU32 maxHostNum

/-! ## Sections -/

/-- The fields of `struct _sf_global` between the checksum and the end marker. -/
structure SfGlobalBody where
  version : MtcU32
  lengthGlobal : MtcU32
  lengthHostSpecfic : MtcU32
  maxHosts : MtcU32
  genUuid : SfUuid
  poolState : MtcU32
  master : SfUuid
  configHosts : MtcU32

def globalBodyLayout : Layout Byte SfGlobalBody :=
  (wordLayout.prod (wordLayout.prod (wordLayout.prod (wordLayout.prod (uuidLayout.prod (wordLayout.prod
    (uuidLayout.prod wordLayout))))))).map
    { toFun := fun (version, lengthGlobal, lengthHostSpecfic, maxHosts, genUuid, poolState, master, configHosts) =>
        ⟨version, lengthGlobal, lengthHostSpecfic, maxHosts, genUuid, poolState, master, configHosts⟩
      invFun := fun b => (b.version, b.lengthGlobal, b.lengthHostSpecfic, b.maxHosts, b.genUuid, b.poolState, b.master,
        b.configHosts)
      left_inv := fun _ => rfl
      right_inv := fun _ => rfl }

/-- The fields of `struct _sf_host_specific` between the checksum and the end marker. -/
structure SfHostBody where
  sequence : MtcU32
  hostIndex : MtcU32
  hostUuid : SfUuid
  excluded : MtcU32
  starting : MtcU32
  sinceLastHbReceipt : SfTimes
  sinceLastSfUpdate : SfTimes
  sinceXapiRestartFirstAttempted : MtcU32
  currentLiveset : HostMap
  proposedLiveset : HostMap
  hbdomain : HostMap
  sfdomain : HostMap
  lockRequest : MtcU32
  lockGrant : HostMap
  smPhase : MtcU32
  weight : MtcU32

def hostBodyLayout : Layout Byte SfHostBody :=
  (wordLayout.prod (wordLayout.prod (uuidLayout.prod (wordLayout.prod (wordLayout.prod ((wordLayout.array maxHostNum).prod
    ((wordLayout.array maxHostNum).prod (wordLayout.prod (hostMapLayout.prod (hostMapLayout.prod (hostMapLayout.prod
      (hostMapLayout.prod (wordLayout.prod (hostMapLayout.prod (wordLayout.prod wordLayout))))))))))))))).map
    { toFun := fun (sequence, hostIndex, hostUuid, excluded, starting, sinceLastHbReceipt, sinceLastSfUpdate,
          sinceXapiRestartFirstAttempted, currentLiveset, proposedLiveset, hbdomain, sfdomain, lockRequest, lockGrant,
          smPhase, weight) =>
        ⟨sequence, hostIndex, hostUuid, excluded, starting, sinceLastHbReceipt, sinceLastSfUpdate,
          sinceXapiRestartFirstAttempted, currentLiveset, proposedLiveset, hbdomain, sfdomain, lockRequest, lockGrant,
          smPhase, weight⟩
      invFun := fun b => (b.sequence, b.hostIndex, b.hostUuid, b.excluded, b.starting, b.sinceLastHbReceipt,
        b.sinceLastSfUpdate, b.sinceXapiRestartFirstAttempted, b.currentLiveset, b.proposedLiveset, b.hbdomain, b.sfdomain,
        b.lockRequest, b.lockGrant, b.smPhase, b.weight)
      left_inv := fun _ => rfl
      right_inv := fun _ => rfl }

/-- `data` of either section. -/
structure SfData (β : Type) where
  sig : MtcU32
  sigInv : MtcU32
  checksum : MtcU32
  body : β
  endMarker : MtcU32

def dataLayout {β : Type} (B : Layout Byte β) : Layout Byte (SfData β) :=
  (wordLayout.prod (wordLayout.prod (wordLayout.prod (B.prod wordLayout)))).map
    { toFun := fun (sig, sigInv, checksum, body, endMarker) => ⟨sig, sigInv, checksum, body, endMarker⟩
      invFun := fun d => (d.sig, d.sigInv, d.checksum, d.body, d.endMarker)
      left_inv := fun _ => rfl
      right_inv := fun _ => rfl }

/-- `LENGTH_GLOBAL` and `LENGTH_HOST_SPECIFIC`. -/
def lengthGlobal : Nat := 4096
def lengthHostSpecific : Nat := 4096

/-- A section in memory: the union of its `data` and the bytes of its slot. -/
structure SfSection where
  bytes : List Byte
  length_bytes : bytes.length = lengthGlobal

/-- The section after a read into it. -/
def SfSection.overlay (p : SfSection) (buffer : List Byte) : SfSection where
  bytes := (buffer ++ p.bytes.drop buffer.length).take lengthGlobal
  length_bytes := by
    rw [List.length_take, List.length_append, List.length_drop, p.length_bytes]
    omega

/-! ## The two kinds -/

/-- `SF_VERSION`. -/
def sfVersion : MtcU32 := 2

/-- `SIG_SF_GLOBAL`, `SIG_END_MARKER_GLOBAL`, `SIG_SF_HOST` and `SIG_END_MARKER_HOST`: the characters 'loop', 'pdne',
'tsoh' and 'hdne'. -/
def sigSfGlobal : MtcU32 := 0x6c6f6f70
def sigEndMarkerGlobal : MtcU32 := 0x70646e65
def sigSfHost : MtcU32 := 0x74736f68
def sigEndMarkerHost : MtcU32 := 0x68646e65

/-- `sf_create_inverted_sig`, on an `int`. -/
def sfCreateInvertedSig (sig : MtcU32) : MtcU32 := (~~~sig).sshiftRight 3

/-- `sf_checksum` over the words of memory. -/
def sfChecksum (words : List MtcU32) : MtcU32 := words.foldl (· + ·) 0

/-- A kind of section: the layout of its body, its constants and its place in the State-File, what is set of the body
before it is written, and what of it is checked behind the checksum. -/
structure SfFormat (β : Type) where
  layout : Layout Byte β
  words : Nat
  sig : MtcU32
  endMarker : MtcU32
  stamp : β → β
  check : β → SfStatus
  offset : Nat
  size_eq : layout.size = words * wordLayout.size
  /-- `MTC_ASSERT_SIZE`. -/
  fits : roundUp (dataLayout layout).size ioUnit ≤ lengthGlobal
  aligned : offset % ioUnit = 0

namespace SfFormat

variable {β : Type} (F : SfFormat β)

/-- `sizeof(data)`. -/
def size : Nat := (dataLayout F.layout).size

/-- The length of each access. -/
def rounded : Nat := roundUp F.size ioUnit

/-- The words from the first one of the body up to the end marker. -/
def bodyWords (b : β) : List MtcU32 := wordLayout.decodeArray F.words (F.layout.encode b)

def data (p : SfSection) : SfData β := (dataLayout F.layout).decode (p.bytes.take F.size)

def setData (p : SfSection) (d : SfData β) : SfSection where
  bytes := (dataLayout F.layout).encode d ++ p.bytes.drop F.size
  length_bytes := by
    have hsize : F.size ≤ lengthGlobal := by
      have hfits := F.fits
      have hround : F.size ≤ roundUp F.size ioUnit := by unfold roundUp ioUnit; omega
      exact le_trans hround hfits
    rw [List.length_append, (dataLayout F.layout).length_encode, List.length_drop, p.length_bytes]
    exact Nat.add_sub_cancel' hsize

/-- The section that is written for a body. -/
def sealed (b : β) : SfData β where
  sig := F.sig
  sigInv := sfCreateInvertedSig F.sig
  checksum := sfChecksum (F.bodyWords (F.stamp b))
  body := F.stamp b
  endMarker := F.endMarker

/-- The checks of a section that has been read. -/
def validate (d : SfData β) : SfStatus :=
  if d.sig ≠ F.sig ∨ d.sigInv ≠ sfCreateInvertedSig F.sig then .corruption
  else if sfChecksum (F.bodyWords d.body) ≠ d.checksum then .corruption
  else F.check d.body

/-- `sf_readglobal` and `sf_readhostspecific`. -/
def readSection (d : SfDescriptor) (file : List Byte) (p : SfSection) (fuel : Nat) : SfCall (SfStatus × SfSection) :=
  (d.sfRead file F.size F.offset fuel).bind fun (status, buffer) =>
    let p := p.overlay buffer
    .returned (if status ≠ .success then .ioError else F.validate (F.data p), p)

/-- `sf_writeglobal` and `sf_writehostspecific`: the status, the file and the section behind it. -/
def writeSection (d : SfDescriptor) (file : List Byte) (p : SfSection) : SfCall (SfStatus × List Byte × SfSection) :=
  let p := F.setData p (F.sealed (F.data p).body)
  (d.sfWrite file p.bytes F.size F.offset).bind fun (status, file) => .returned (status, file, p)

end SfFormat

/-- The global section, with the UUID expected in it, if any. -/
def globalFormat (expectedUuid : Option MtcUuid) : SfFormat SfGlobalBody where
  layout := globalBodyLayout
  words := 22
  sig := sigSfGlobal
  endMarker := sigEndMarkerGlobal
  stamp b := { b with
    version := sfVersion
    lengthGlobal := BitVec.ofNat 32 lengthGlobal
    lengthHostSpecfic := BitVec.ofNat 32 lengthHostSpecific
    maxHosts := BitVec.ofNat 32 maxHostNum }
  check b :=
    if b.version ≠ sfVersion then .versionMismatch
    else match expectedUuid with
      | some uuid => if uuidComp b.genUuid.chars uuid ≠ .eq then .genUuid else .success
      | none => .success
  offset := 0
  size_eq := rfl
  fits := by decide
  aligned := rfl

/-- The record of a host. -/
def hostFormat (hostIndex : Nat) : SfFormat SfHostBody where
  layout := hostBodyLayout
  words := 154
  sig := sigSfHost
  endMarker := sigEndMarkerHost
  stamp b := b
  check _ := .success
  offset := lengthGlobal + hostIndex * lengthHostSpecific
  size_eq := rfl
  fits := by decide
  aligned := by
    unfold lengthGlobal lengthHostSpecific ioUnit
    omega

/-- `sf_readglobal`. -/
def sfReadglobal (d : SfDescriptor) (file : List Byte) (pglobal : SfSection) (expectedUuid : Option MtcUuid) :
    Nat → SfCall (SfStatus × SfSection) :=
  (globalFormat expectedUuid).readSection d file pglobal

/-- `sf_readhostspecific`. -/
def sfReadhostspecific (d : SfDescriptor) (file : List Byte) (hostIndex : Nat) (phost : SfSection) :
    Nat → SfCall (SfStatus × SfSection) :=
  (hostFormat hostIndex).readSection d file phost

/-- `sf_writeglobal`. -/
def sfWriteglobal (d : SfDescriptor) (file : List Byte) (pglobal : SfSection) : SfCall (SfStatus × List Byte × SfSection) :=
  (globalFormat none).writeSection d file pglobal

/-- `sf_writehostspecific`. -/
def sfWritehostspecific (d : SfDescriptor) (file : List Byte) (hostIndex : Nat) (phost : SfSection) :
    SfCall (SfStatus × List Byte × SfSection) :=
  (hostFormat hostIndex).writeSection d file phost

end Xha
