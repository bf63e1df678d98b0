/-
The weight file: the table of weight classes as text, one line a class (weightio.c), `weightctl set`
(weightctl.c) and the daemon's reload of the file (hostweight.c). A call takes the file as it is, and how
its I/O goes.
-/
import Mathlib.Algebra.Group.Int.Defs
import Xha.Com

namespace Xha

open Loop

/-! ## The table -/

/-- `MAX_HOST_WEIGHT_VALUE`. -/
def maxHostWeightValue : Nat := 65535

/-- `MAX_HOST_WEIGHT_CLASSNAME_LEN`, with the terminator. -/
def maxHostWeightClassnameLen : Nat := 64 + 1

/-- `MAX_HOST_WEIGHT_CLASS_NUM`. -/
def maxHostWeightClassNum : Nat := 16

/-- `BUILTIN_HOST_WEIGHT_CLASSNAME`. -/
def builtinHostWeightClassname : List Char := ['n', 'a', 't', 'i', 'v', 'e']

/-- `BUILTIN_HOST_WEIGHT_VALUE`. -/
def builtinHostWeightValue : MtcU32 := 1

/-- `HOST_WEIGHT_TABLE`: a slot without a name is free. -/
structure HostWeight where
  classname : List Char
  weight : MtcU32
  deriving DecidableEq

/-- A slot that `memset` has cleared. -/
def HostWeight.free : HostWeight := ⟨[], 0⟩

/-- A table of `MAX_HOST_WEIGHT_CLASS_NUM` slots. -/
structure WeightTable where
  slots : List HostWeight
  length_eq : slots.length = maxHostWeightClassNum
  deriving DecidableEq

namespace WeightTable

def empty : WeightTable := ⟨List.replicate maxHostWeightClassNum .free, List.length_replicate⟩

def set (t : WeightTable) (index : Nat) (e : HostWeight) : WeightTable :=
  ⟨t.slots.set index e, by rw [List.length_set, t.length_eq]⟩

@[simp] theorem set_slots (t : WeightTable) (index : Nat) (e : HostWeight) :
    (t.set index e).slots = t.slots.set index e := rfl

/-- The slots that hold a class, in order. -/
def classes (t : WeightTable) : List HostWeight := t.slots.filter fun e => e.classname ≠ []

end WeightTable

/-! ## Text -/

/-- `BUFSIZ` of the C library. -/
def bufsiz : Nat := 8192

/-- `MAX_HOST_WEIGHT_FILE_LINELEN`. -/
def maxHostWeightFileLinelen : Nat := maxHostWeightClassnameLen + bufsiz

/-- `MAX_HOST_WEIGHT_FILE_SIZE`. -/
def maxHostWeightFileSize : Nat := maxHostWeightClassNum * maxHostWeightFileLinelen

/-- `isgraph` in the C locale. -/
def isGraph (chr : Char) : Bool := 0x21 ≤ chr.toNat && chr.toNat ≤ 0x7e

/-- `isspace` in the C locale. -/
def isSpace (chr : Char) : Bool := chr.toNat = 0x20 || (0x09 ≤ chr.toNat && chr.toNat ≤ 0x0d)

/-- `%d` of `printf`. -/
def printInt (i : Int) : List Char :=
  if i < 0 then '-' :: Nat.toDigits 10 i.natAbs else Nat.toDigits 10 i.natAbs

/-- The digits of a number at the start of a text, as `%d` of `scanf` takes them; a `long` saturates. -/
def scanDigits (negative : Bool) (str : List Char) : Option Int :=
  let digits := str.takeWhile Char.isDigit
  if digits = [] then none
  else
    let n := Nat.ofDigitChars 10 digits 0
    some (if negative then max (-(n : Int)) (-(2 ^ 63)) else min (n : Int) (2 ^ 63 - 1))

/-- `%d` of `scanf`. -/
def scanInt (str : List Char) : Option Int :=
  match str.dropWhile isSpace with
  | '-' :: rest => scanDigits true rest
  | '+' :: rest => scanDigits false rest
  | rest => scanDigits false rest

/-- `sscanf(str, "%s %d", classname, &weight) == 2`. -/
def scanClass (str : List Char) : Option HostWeight :=
  let str := str.dropWhile isSpace
  let classname := str.takeWhile fun chr => !isSpace chr
  if classname = [] then none
  else (scanInt (str.dropWhile fun chr => !isSpace chr)).map fun weight => ⟨classname, BitVec.ofInt 32 weight⟩

/-- `sprintf(line, "%s %d\n", …)`, without the newline. -/
def printClass (e : HostWeight) : List Char := e.classname ++ ' ' :: printInt e.weight.toInt

/-! ## The file -/

/-- What a line of the file says, if it is neither too long nor malformed. -/
def readLine (str : List Char) : Option HostWeight :=
  if str.length < maxHostWeightFileLinelen then
    (scanClass str).filter fun e => e.classname.length < maxHostWeightClassnameLen
  else none

/-- The loop of `read_hostweight_file` over the lines; it ends when the table is full. -/
def readLines (wtable : WeightTable) (index : Nat) : List (List Char) → WeightTable
  | [] => wtable
  | str :: rest =>
    match readLine str with
    | some e =>
      let wtable := wtable.set index e
      if maxHostWeightClassNum ≤ index + 1 then wtable else readLines wtable (index + 1) rest
    | none => readLines wtable index rest

/-- `read_hostweight_file`: the buffer ends at its first zero byte, and at its size. -/
def readHostweightFile (file : List Char) : WeightTable :=
  let buf := (file.take maxHostWeightFileSize).takeWhile fun chr => chr ≠ '\x00'
  if file.take maxHostWeightFileSize = [] then .empty else readLines .empty 0 (buf.splitOn '\n')

/-- What `write_hostweight_file` writes. -/
def writeHostweightFile (wtable : WeightTable) : List Char :=
  wtable.slots.flatMap fun e => if e.classname ≠ [] then printClass e ++ ['\n'] else []

/-- `set_hostweight_table`; `none` when the table is full. -/
def setHostweightTable (wtable : WeightTable) (classname : List Char) (weight : MtcU32) : Option WeightTable :=
  match wtable.slots.findIdx? fun e => e.classname = classname with
  | some index => some (wtable.set index ⟨if weight = 0 then [] else classname, weight⟩)
  | none =>
    if weight = 0 then some wtable
    else (wtable.slots.findIdx? fun e => e.classname = []).map fun index => wtable.set index ⟨classname, weight⟩

/-! ## `weightctl set` -/

/-- The exit codes of `weightctl`. -/
inductive MtcExit
  | success | invalidParameter | systemError
  deriving DecidableEq, Repr

/-- How the I/O of a call goes: the file is opened and locked, it is read, and so many characters are
written; `none` when all are. -/
structure WeightIo where
  opened : Bool
  read : Bool
  written : Option Nat

/-- I/O without errors. -/
def WeightIo.success : WeightIo := ⟨true, true, none⟩

/-- The name under which a class is kept. -/
def cname (classname : List Char) : List Char :=
  if maxHostWeightClassnameLen ≤ classname.length then classname.take (maxHostWeightClassnameLen - 1) else classname

/-- `weight_set`: the exit code and the file it leaves. -/
def weightSet (io : WeightIo) (classname : List Char) (weight : MtcU32) (file : List Char) : MtcExit × List Char :=
  if maxHostWeightValue < weight.toNat then (.invalidParameter, file)
  else if classname = builtinHostWeightClassname then (.invalidParameter, file)
  else if !classname.all isGraph then (.invalidParameter, file)
  else if !io.opened then (.systemError, file)
  else if !io.read then (.systemError, file)
  else
    match setHostweightTable (readHostweightFile file) (cname classname) weight with
    | none => (.invalidParameter, file)
    | some wtable =>
      match io.written with
      | none => (.success, writeHostweightFile wtable)
      | some n => (.systemError, (writeHostweightFile wtable).take n)

/-! ## The daemon -/

/-- `calc_hostweight`. -/
def calcHostweight (weightTable : WeightTable) : MtcU32 :=
  weightTable.slots.foldl (fun weight e => if e.classname = [] then weight else weight + e.weight) builtinHostWeightValue

/-- The last loop of `hostweight_update`. -/
def hostweightUpdate (wtable newwtable : WeightTable) : WeightTable :=
  forRange maxHostWeightClassNum wtable fun wtable index => wtable.set index (newwtable.slots.getD index .free)

/-- `hostweight_set_sm`. -/
def hostweightSetSm (weightTable : WeightTable) (h : Host) : Host :=
  let hostweight := calcHostweight weightTable
  (if h.sm.weight ≠ hostweight then { h with sm := { h.sm with weight := hostweight } } else h).smWriterUnlock

/-- `hostweight_reload`, on a file that can be opened and read: the daemon's table and its objects. -/
def hostweightReload (file : List Char) (weightTable : WeightTable) (h : Host) : WeightTable × Host :=
  let newwtable := readHostweightFile file
  let weightTable := hostweightUpdate weightTable newwtable
  (weightTable, hostweightSetSm weightTable h)

end Xha
