/-
The weight file as a map from classes to weights: what `weight_set` writes is read back as it was, so that
a sequence of calls does to the file what it does to a finite map, and the daemon's reload adds up the map
(`weight_file_is_map`). One call is shown to refine one update of the map, and the sequence follows by induction.
-/
import Mathlib.Algebra.Order.BigOperators.Group.List
import Mathlib.Algebra.Order.Ring.Nat
import Mathlib.Data.List.TakeWhile
import Xha.Lib.FiniteMap
import Xha.Weight.File

namespace Xha

open FiniteMap Loop

/-! ## A line -/

/-- What `weight_set` puts into the file. -/
structure HostWeight.Proper (e : HostWeight) : Prop where
  classname : e.classname ≠ []
  graph : ∀ chr ∈ e.classname, isGraph chr = true
  short : e.classname.length < maxHostWeightClassnameLen
  weight : e.weight.toNat ≤ maxHostWeightValue

theorem isSpace_of_isGraph {chr : Char} (h : isGraph chr = true) : isSpace chr = false := by
  simp only [isGraph, Bool.and_eq_true, decide_eq_true_eq] at h
  simp only [isSpace, Bool.or_eq_false_iff, Bool.and_eq_false_iff, decide_eq_false_iff_not]
  omega

theorem isGraph_of_isDigit {chr : Char} (h : chr.isDigit = true) : isGraph chr = true := by
  simp only [Char.isDigit, Bool.and_eq_true, decide_eq_true_eq] at h
  simp only [isGraph, Bool.and_eq_true, decide_eq_true_eq]
  have h1 : (48 : Nat) ≤ chr.toNat := h.1
  have h2 : chr.toNat ≤ 57 := h.2
  omega

theorem isDigit_of_mem_digits {n : Nat} {chr : Char} (h : chr ∈ Nat.toDigits 10 n) : chr.isDigit = true :=
  Nat.isDigit_of_mem_toDigits (by omega) (by omega) h

theorem printInt_weight {w : MtcU32} (h : w.toNat ≤ maxHostWeightValue) : printInt w.toInt = Nat.toDigits 10 w.toNat := by
  have hw : w.toInt = (w.toNat : Int) := by
    rw [BitVec.toInt_eq_toNat_of_lt]
    unfold maxHostWeightValue at h
    omega
  rw [printInt, hw, if_neg (by omega), Int.natAbs_natCast]

/-- A number that is printed is scanned again. -/
theorem scanInt_digits {n : Nat} (hn : n < 2 ^ 63) : scanInt (' ' :: Nat.toDigits 10 n) = some (n : Int) := by
  have hdigit := fun chr (h : chr ∈ Nat.toDigits 10 n) => isDigit_of_mem_digits h
  obtain ⟨d, rest, hd⟩ := List.exists_cons_of_ne_nil (Nat.toDigits_ne_nil (n := n) (b := 10))
  have hfirst : d.isDigit = true := hdigit d (by rw [hd]; exact List.mem_cons_self)
  have hskip : (' ' :: Nat.toDigits 10 n).dropWhile isSpace = d :: rest := by
    rw [hd]
    have hspace : isSpace d = false := isSpace_of_isGraph (isGraph_of_isDigit hfirst)
    simp [hspace, show isSpace ' ' = true from by decide]
  have htake : (d :: rest).takeWhile Char.isDigit = d :: rest := by
    rw [← hd]
    exact List.takeWhile_eq_self_iff.2 hdigit
  have hscan : scanDigits false (d :: rest) = some (n : Int) := by
    rw [scanDigits, htake, if_neg (by simp), ← hd, Nat.ofDigitChars_ten_toDigits]
    simp only [Bool.false_eq_true, if_false, Option.some.injEq]
    omega
  rw [scanInt, hskip]
  split
  · rename_i he
    cases he
    exact absurd hfirst (by decide)
  · rename_i he
    cases he
    exact absurd hfirst (by decide)
  · exact hscan

theorem scanClass_printClass {e : HostWeight} (h : e.Proper) : scanClass (printClass e) = some e := by
  have hgraph : ∀ chr ∈ e.classname, isSpace chr = false := fun chr hchr => isSpace_of_isGraph (h.graph chr hchr)
  obtain ⟨chr, rest, hname⟩ := List.exists_cons_of_ne_nil h.classname
  have hskip : (printClass e).dropWhile isSpace = printClass e := by
    have hfirst : isSpace chr = false := hgraph chr (by rw [hname]; exact List.mem_cons_self)
    rw [printClass, hname, List.cons_append, List.dropWhile_cons_of_neg (by simp [hfirst])]
  have hspace : isSpace ' ' = true := by decide
  have htake : (printClass e).takeWhile (fun chr => !isSpace chr) = e.classname := by
    rw [printClass, List.takeWhile_append_of_pos (fun c hc => by simp [hgraph c hc])]
    simp [hspace]
  have hdrop : (printClass e).dropWhile (fun chr => !isSpace chr) = ' ' :: Nat.toDigits 10 e.weight.toNat := by
    rw [printClass, List.dropWhile_append_of_pos (fun c hc => by simp [hgraph c hc]), printInt_weight h.weight]
    simp [hspace]
  have hweight : BitVec.ofInt 32 (e.weight.toNat : Int) = e.weight := by
    rw [BitVec.ofInt_natCast, BitVec.ofNat_toNat, BitVec.setWidth_eq]
  have hlt : e.weight.toNat < 2 ^ 63 := by
    have := e.weight.isLt
    omega
  rw [scanClass, hskip, htake, hdrop, if_neg h.classname, scanInt_digits hlt, Option.map_some, hweight]

/-- The characters of a line neither end it nor the buffer. -/
theorem mem_printClass {e : HostWeight} (h : e.Proper) {chr : Char} (hchr : chr ∈ printClass e) :
    chr ≠ '\n' ∧ chr ≠ '\x00' := by
  have hplain : ∀ chr, isGraph chr = true → chr ≠ '\n' ∧ chr ≠ '\x00' := by
    rintro chr hg
    constructor <;> rintro rfl <;> exact absurd hg (by decide)
  rw [printClass, printInt_weight h.weight, List.mem_append, List.mem_cons] at hchr
  rcases hchr with hchr | rfl | hchr
  · exact hplain chr (h.graph chr hchr)
  · decide
  · exact hplain chr (isGraph_of_isDigit (isDigit_of_mem_digits hchr))

theorem length_printClass {e : HostWeight} (h : e.Proper) : (printClass e).length < 128 := by
  have hdigits : (Nat.toDigits 10 e.weight.toNat).length ≤ 5 := by
    rw [Nat.length_toDigits_le_iff (by omega) (by omega)]
    have := h.weight
    unfold maxHostWeightValue at this
    omega
  have hname := h.short
  unfold maxHostWeightClassnameLen at hname
  rw [printClass, printInt_weight h.weight, List.length_append, List.length_cons]
  omega

theorem readLine_printClass {e : HostWeight} (h : e.Proper) : readLine (printClass e) = some e := by
  have hlen : (printClass e).length < maxHostWeightFileLinelen :=
    lt_trans (length_printClass h) (by decide)
  rw [readLine, if_pos hlen, scanClass_printClass h, Option.filter_some, if_pos (by simpa using h.short)]

theorem readLine_nil : readLine [] = none := by decide

/-! ## The file -/

/-- The text of a list of classes. -/
def textOf (l : List HostWeight) : List Char := l.flatMap fun e => printClass e ++ ['\n']

theorem writeHostweightFile_eq (wtable : WeightTable) : writeHostweightFile wtable = textOf wtable.classes := by
  unfold writeHostweightFile textOf WeightTable.classes
  induction wtable.slots with
  | nil => rfl
  | cons e l ih =>
    rw [List.flatMap_cons, ih, List.filter_cons]
    by_cases he : e.classname = []
    · simp [he]
    · simp [he]

/-- The table that holds the classes in its first slots. -/
def WeightTable.Holds (wtable : WeightTable) (l : List HostWeight) : Prop :=
  wtable.slots = l ++ List.replicate (maxHostWeightClassNum - l.length) .free

theorem WeightTable.holds_empty : WeightTable.empty.Holds [] := by
  rw [Holds, List.nil_append]
  rfl

theorem splitOn_textOf {l : List HostWeight} (h : ∀ e ∈ l, e.Proper) :
    (textOf l).splitOn '\n' = l.map printClass ++ [[]] := by
  induction l with
  | nil => rfl
  | cons e l ih =>
    obtain ⟨he, hl⟩ := List.forall_mem_cons.1 h
    have hline : '\n' ∉ printClass e := fun hm => (mem_printClass he hm).1 rfl
    rw [textOf, List.flatMap_cons, List.append_assoc, List.singleton_append,
      List.splitOn_append_cons_self_of_not_mem hline]
    rw [textOf] at ih
    rw [ih hl, List.map_cons, List.cons_append]

theorem mem_textOf {l : List HostWeight} (h : ∀ e ∈ l, e.Proper) {chr : Char} (hchr : chr ∈ textOf l) :
    chr ≠ '\x00' := by
  rw [textOf, List.mem_flatMap] at hchr
  obtain ⟨e, he, hchr⟩ := hchr
  rw [List.mem_append, List.mem_singleton] at hchr
  rcases hchr with hchr | rfl
  · exact (mem_printClass (h e he) hchr).2
  · decide

theorem length_textOf {l : List HostWeight} (h : ∀ e ∈ l, e.Proper) : (textOf l).length ≤ 128 * l.length := by
  induction l with
  | nil => exact Nat.le_refl 0
  | cons e l ih =>
    obtain ⟨he, hl⟩ := List.forall_mem_cons.1 h
    have hline := length_printClass he
    have hrest := ih hl
    rw [textOf] at hrest ⊢
    rw [List.flatMap_cons, List.length_append, List.length_append, List.length_singleton, List.length_cons]
    omega

/-- Lines of proper classes go into the next slots; the end of the file adds nothing. -/
theorem readLines_print {l pre : List HostWeight} (h : ∀ e ∈ l, e.Proper)
    (hlen : pre.length + l.length ≤ maxHostWeightClassNum) {wtable : WeightTable} (hw : wtable.Holds pre) :
    (readLines wtable pre.length (l.map printClass ++ [[]])).Holds (pre ++ l) := by
  induction l generalizing pre wtable with
  | nil =>
    rw [List.map_nil, List.nil_append, readLines, readLine_nil, List.append_nil]
    exact hw
  | cons e l ih =>
    obtain ⟨he, hl⟩ := List.forall_mem_cons.1 h
    rw [List.length_cons] at hlen
    have hset : (wtable.set pre.length e).Holds (pre ++ [e]) := by
      have hfree : List.replicate (maxHostWeightClassNum - pre.length) HostWeight.free =
          HostWeight.free :: List.replicate (maxHostWeightClassNum - (pre ++ [e]).length) HostWeight.free := by
        rw [← List.replicate_succ, List.length_append, List.length_singleton]
        congr 1
        omega
      rw [WeightTable.Holds] at hw ⊢
      rw [WeightTable.set_slots, hw, hfree, List.set_append_right _ _ (Nat.le_refl _), Nat.sub_self, List.set_cons_zero,
        List.append_assoc, List.singleton_append]
    rw [List.map_cons, List.cons_append, readLines, readLine_printClass he]
    dsimp only
    split
    · -- the table is full
      obtain rfl : l = [] := List.eq_nil_of_length_eq_zero (by omega)
      exact hset
    · have hrest : (readLines (wtable.set pre.length e) (pre ++ [e]).length (l.map printClass ++ [[]])).Holds
          (pre ++ [e] ++ l) := ih hl (by rw [List.length_append, List.length_singleton]; omega) hset
      rw [List.length_append, List.length_singleton, List.append_assoc, List.singleton_append] at hrest
      exact hrest

/-- What was written is read back. -/
theorem readHostweightFile_textOf {l : List HostWeight} (h : ∀ e ∈ l, e.Proper) (hlen : l.length ≤ maxHostWeightClassNum) :
    (readHostweightFile (textOf l)).Holds l := by
  have hfit : (textOf l).take maxHostWeightFileSize = textOf l := by
    refine List.take_of_length_le (le_trans (length_textOf h) ?_)
    unfold maxHostWeightFileSize maxHostWeightFileLinelen maxHostWeightClassnameLen bufsiz
    omega
  have hbuf : (textOf l).takeWhile (fun chr => decide (chr ≠ '\x00')) = textOf l :=
    List.takeWhile_eq_self_iff.2 fun chr hchr => decide_eq_true (mem_textOf h hchr)
  have hread : (readLines .empty ([] : List HostWeight).length (l.map printClass ++ [[]])).Holds ([] ++ l) :=
    readLines_print h (by simpa using hlen) WeightTable.holds_empty
  rw [List.nil_append, List.length_nil, ← splitOn_textOf h] at hread
  unfold readHostweightFile
  dsimp only
  rw [hfit, hbuf]
  split
  · rename_i hnil
    cases l with
    | nil => exact WeightTable.holds_empty
    | cons e l => simp [textOf] at hnil
  · exact hread

/-! ## The table -/

theorem filter_named {l : List HostWeight} (h : ∀ e ∈ l, e.classname ≠ []) :
    l.filter (fun e => decide (e.classname ≠ [])) = l :=
  List.filter_eq_self.2 fun e he => decide_eq_true (h e he)

theorem filter_free (n : Nat) : (List.replicate n HostWeight.free).filter (fun e => decide (e.classname ≠ [])) = [] := by
  rw [List.filter_eq_nil_iff]
  intro e he
  rw [List.eq_of_mem_replicate he]
  simp [HostWeight.free]

theorem WeightTable.Holds.classes {wtable : WeightTable} {l : List HostWeight} (h : wtable.Holds l)
    (hl : ∀ e ∈ l, e.classname ≠ []) : wtable.classes = l := by
  rw [WeightTable.classes, show wtable.slots = _ from h, List.filter_append, filter_named hl, filter_free, List.append_nil]

/-- The first slot with a property. -/
theorem findIdx?_first {p : HostWeight → Bool} {l₁ l₂ : List HostWeight} {e : HostWeight} (h₁ : ∀ x ∈ l₁, p x = false)
    (he : p e = true) : (l₁ ++ e :: l₂).findIdx? p = some l₁.length := by
  rw [List.findIdx?_append, List.findIdx?_eq_none_iff.2 h₁, List.findIdx?_cons, he]
  simp

section

variable {wtable : WeightTable} {l l₁ l₂ : List HostWeight} {e : HostWeight} {name : List Char} {w : MtcU32}

theorem setHostweightTable_present (hw : wtable.Holds (l₁ ++ e :: l₂)) (hl : ∀ x ∈ l₁ ++ e :: l₂, x.classname ≠ [])
    (hname : name ≠ []) (he : e.classname = name) (h₁ : ∀ x ∈ l₁, x.classname ≠ name) :
    (setHostweightTable wtable name w).map WeightTable.classes =
      some (l₁ ++ (if w = 0 then l₂ else ⟨name, w⟩ :: l₂)) := by
  have hslots : wtable.slots = l₁ ++ e :: (l₂ ++ List.replicate (maxHostWeightClassNum - (l₁ ++ e :: l₂).length) .free) := by
    rw [show wtable.slots = _ from hw, List.append_assoc, List.cons_append]
  have hfind : wtable.slots.findIdx? (fun x => decide (x.classname = name)) = some l₁.length := by
    rw [hslots]
    exact findIdx?_first (fun x hx => by simpa using h₁ x hx) (by simpa using he)
  have hl₁ : ∀ x ∈ l₁, x.classname ≠ [] := fun x hx => hl x (List.mem_append_left _ hx)
  have hl₂ : ∀ x ∈ l₂, x.classname ≠ [] := fun x hx => hl x (List.mem_append_right _ (List.mem_cons_of_mem _ hx))
  rw [setHostweightTable, hfind]
  dsimp only
  rw [Option.map_some, WeightTable.classes, WeightTable.set_slots, hslots,
    List.set_append_right _ _ (Nat.le_refl _), Nat.sub_self, List.set_cons_zero, List.filter_append, List.filter_cons,
    List.filter_append, filter_free, List.append_nil, filter_named hl₁, filter_named hl₂]
  by_cases hz : w = 0
  · rw [if_pos hz, if_pos hz]
    simp
  · rw [if_neg hz, if_neg hz]
    simp [hname]

theorem setHostweightTable_absent (hw : wtable.Holds l) (hname : name ≠ []) (habs : ∀ x ∈ l, x.classname ≠ name) :
    setHostweightTable wtable name w =
      if w = 0 then some wtable
      else (wtable.slots.findIdx? fun x => x.classname = []).map fun index => wtable.set index ⟨name, w⟩ := by
  have hfind : wtable.slots.findIdx? (fun x => decide (x.classname = name)) = none := by
    rw [List.findIdx?_eq_none_iff, show wtable.slots = _ from hw]
    intro x hx
    rcases List.mem_append.1 hx with hx | hx
    · simpa using habs x hx
    · rw [List.eq_of_mem_replicate hx]
      simpa [HostWeight.free] using Ne.symm hname
  rw [setHostweightTable, hfind]

/-- A new class goes into the first free slot. -/
theorem setHostweightTable_add (hw : wtable.Holds l) (hl : ∀ x ∈ l, x.classname ≠ []) (hname : name ≠ [])
    (habs : ∀ x ∈ l, x.classname ≠ name) (hz : w ≠ 0) (hlen : l.length < maxHostWeightClassNum) :
    (setHostweightTable wtable name w).map WeightTable.classes = some (l ++ [⟨name, w⟩]) := by
  obtain ⟨n, hn⟩ : ∃ n, maxHostWeightClassNum - l.length = n + 1 := ⟨maxHostWeightClassNum - l.length - 1, by omega⟩
  have hslots : wtable.slots = l ++ .free :: List.replicate n .free := by
    rw [show wtable.slots = _ from hw, hn, List.replicate_succ]
  have hfind : wtable.slots.findIdx? (fun x => decide (x.classname = [])) = some l.length := by
    rw [hslots]
    exact findIdx?_first (fun x hx => by simpa using hl x hx) rfl
  have hholds : (wtable.set l.length ⟨name, w⟩).Holds (l ++ [⟨name, w⟩]) := by
    rw [WeightTable.Holds, WeightTable.set_slots, hslots, List.set_append_right _ _ (Nat.le_refl _), Nat.sub_self,
      List.set_cons_zero, List.append_assoc, List.singleton_append, List.length_append, List.length_singleton]
    congr 3
    omega
  rw [setHostweightTable_absent hw hname habs, if_neg hz, hfind, Option.map_some, Option.map_some, hholds.classes]
  intro x hx
  rcases List.mem_append.1 hx with hx | hx
  · exact hl x hx
  · rw [List.mem_singleton.1 hx]
    exact hname

/-- A full table takes no new class. -/
theorem setHostweightTable_full (hw : wtable.Holds l) (hl : ∀ x ∈ l, x.classname ≠ []) (hname : name ≠ [])
    (habs : ∀ x ∈ l, x.classname ≠ name) (hz : w ≠ 0) (hlen : l.length = maxHostWeightClassNum) :
    setHostweightTable wtable name w = none := by
  have hfind : wtable.slots.findIdx? (fun x => decide (x.classname = [])) = none := by
    rw [List.findIdx?_eq_none_iff, show wtable.slots = _ from hw, hlen, Nat.sub_self, List.replicate_zero,
      List.append_nil]
    intro x hx
    simpa using hl x hx
  rw [setHostweightTable_absent hw hname habs, if_neg hz, hfind, Option.map_none]

end

/-! ## The file as a map -/

/-- A class with the number it stands for. -/
def HostWeight.entry (e : HostWeight) : List Char × Nat := (e.classname, e.weight.toNat)

/-- The classes that the file holds, with their weights. -/
def storedClasses (file : List Char) : List (List Char × Nat) := (readHostweightFile file).classes.map HostWeight.entry

/-- The file is the text of a map from classes to weights. -/
structure FileMap (file : List Char) (f : List Char →₀ Nat) : Prop where
  text : ∃ l : List HostWeight, file = textOf l ∧ (∀ e ∈ l, e.Proper) ∧ l.length ≤ maxHostWeightClassNum ∧
    Represents (l.map HostWeight.entry) f

theorem fileMap_nil : FileMap [] 0 :=
  ⟨[], rfl, fun _ he => (List.not_mem_nil he).elim, Nat.zero_le _, Represents.nil⟩

/-- A call of `weight_set`. -/
structure WeightCall where
  classname : List Char
  weight : MtcU32
  deriving DecidableEq

namespace WeightCall

/-- The class is a non-empty string of ASCII graphic characters. -/
structure Proper (call : WeightCall) : Prop where
  nonempty : call.classname ≠ []
  graph : ∀ chr ∈ call.classname, isGraph chr = true

/-- The class the call is about. -/
def name (call : WeightCall) : List Char := cname call.classname

/-- The weight is too large, the class is the builtin one, or it would be one more than there is room for. -/
def Refused (call : WeightCall) (stored : List (List Char × Nat)) : Prop :=
  maxHostWeightValue < call.weight.toNat ∨ call.classname = builtinHostWeightClassname ∨
    (call.weight ≠ 0 ∧ call.name ∉ stored.map Prod.fst ∧ stored.length = maxHostWeightClassNum)

theorem Proper.name_ne_nil {call : WeightCall} (h : call.Proper) : call.name ≠ [] := by
  unfold name cname
  split
  · rename_i hlong
    intro he
    have := congrArg List.length he
    rw [List.length_take, List.length_nil] at this
    unfold maxHostWeightClassnameLen at this hlong
    omega
  · exact h.nonempty

theorem Proper.entry {call : WeightCall} (h : call.Proper) (hw : call.weight.toNat ≤ maxHostWeightValue) :
    (⟨call.name, call.weight⟩ : HostWeight).Proper := by
  refine ⟨h.name_ne_nil, fun chr hchr => h.graph chr ?_, ?_, hw⟩
  · dsimp only [name, cname] at hchr
    split at hchr
    · exact List.mem_of_mem_take hchr
    · exact hchr
  · dsimp only [name, cname]
    split
    · exact lt_of_le_of_lt (List.length_take_le _ _) (by decide)
    · omega

end WeightCall

/-- The stored classes are the entries of the map. -/
theorem FileMap.stored {file : List Char} {f : List Char →₀ Nat} (h : FileMap file f) :
    Represents (storedClasses file) f ∧ (storedClasses file).length ≤ maxHostWeightClassNum := by
  obtain ⟨l, rfl, hl, hlen, hrep⟩ := h.text
  have hread := readHostweightFile_textOf hl hlen
  rw [storedClasses, hread.classes fun e he => (hl e he).classname, List.length_map]
  exact ⟨hrep, hlen⟩

/-- `weight_set` past its checks. -/
theorem weightSet_checked {call : WeightCall} (h : call.Proper) (hw : call.weight.toNat ≤ maxHostWeightValue)
    (hb : call.classname ≠ builtinHostWeightClassname) (file : List Char) :
    weightSet .success call.classname call.weight file =
      match setHostweightTable (readHostweightFile file) call.name call.weight with
      | none => (.invalidParameter, file)
      | some wtable => (.success, writeHostweightFile wtable) := by
  have hgraph : call.classname.all isGraph = true := List.all_eq_true.2 h.graph
  rw [weightSet, if_neg (Nat.not_lt.2 hw), if_neg hb, hgraph]
  rfl

/-- What a table with these classes is written as. -/
theorem weightSet_updates {call : WeightCall} (h : call.Proper) (hw : call.weight.toNat ≤ maxHostWeightValue)
    (hb : call.classname ≠ builtinHostWeightClassname) {file : List Char} {l : List HostWeight}
    (hset : (setHostweightTable (readHostweightFile file) call.name call.weight).map WeightTable.classes = some l) :
    weightSet .success call.classname call.weight file = (.success, textOf l) := by
  obtain ⟨wtable, he, rfl⟩ := Option.map_eq_some_iff.1 hset
  rw [weightSet_checked h hw hb, he]
  dsimp only
  rw [writeHostweightFile_eq]

section

variable {l : List HostWeight} {f : List Char →₀ Nat} {name : List Char} {w : MtcU32}
  (hl : ∀ e ∈ l, e.Proper) (hlen : l.length ≤ maxHostWeightClassNum) (hrep : Represents (l.map HostWeight.entry) f)
  (hnew : HostWeight.Proper ⟨name, w⟩)

include hl hlen hrep hnew

/-- A class that is there gets its new weight, or is removed. -/
theorem FileMap.set_present (hpresent : name ∈ (l.map HostWeight.entry).map Prod.fst) :
    ∃ l', (setHostweightTable (readHostweightFile (textOf l)) name w).map WeightTable.classes = some l' ∧
      FileMap (textOf l') (f.update name w.toNat) := by
  obtain ⟨p, hp, hpn⟩ := List.mem_map.1 hpresent
  obtain ⟨e, he, rfl⟩ := List.mem_map.1 hp
  obtain ⟨l₁, l₂, rfl⟩ := List.append_of_mem he
  have hnamed : ∀ x ∈ l₁ ++ e :: l₂, x.classname ≠ [] := fun x hx => (hl x hx).classname
  rw [List.map_append, List.map_cons, show e.entry = (name, e.weight.toNat) from Prod.ext hpn rfl] at hrep
  have hfirst : ∀ x ∈ l₁, x.classname ≠ name := fun x hx =>
    hrep.unique_key x.entry (List.mem_append_left _ (List.mem_map_of_mem hx))
  refine ⟨_, setHostweightTable_present (readHostweightFile_textOf hl hlen) hnamed hnew.classname hpn hfirst, ?_⟩
  rw [List.length_append, List.length_cons] at hlen
  have hrest : ∀ x ∈ l₁ ++ l₂, x.Proper := fun x hx => hl x (by
    rw [List.mem_append, List.mem_cons]
    exact (List.mem_append.1 hx).imp_right .inr)
  by_cases hz : w = 0
  · rw [if_pos hz, hz]
    refine ⟨_, rfl, hrest, by rw [List.length_append]; omega, ?_⟩
    rw [List.map_append]
    exact hrep.remove
  · rw [if_neg hz]
    refine ⟨_, rfl, fun x hx => ?_, by rw [List.length_append, List.length_cons]; exact hlen, ?_⟩
    · rw [List.perm_middle.mem_iff, List.mem_cons] at hx
      rcases hx with rfl | hx
      · exact hnew
      · exact hrest x hx
    · rw [List.map_append, List.map_cons]
      exact hrep.replace fun hc => hz (BitVec.eq_of_toNat_eq hc)

/-- A class that is not there is added, if there is room and something to add. -/
theorem FileMap.set_absent (habs : name ∉ (l.map HostWeight.entry).map Prod.fst)
    (hroom : w = 0 ∨ l.length ≠ maxHostWeightClassNum) :
    ∃ l', (setHostweightTable (readHostweightFile (textOf l)) name w).map WeightTable.classes = some l' ∧
      FileMap (textOf l') (f.update name w.toNat) := by
  have hread := readHostweightFile_textOf hl hlen
  have hnamed : ∀ x ∈ l, x.classname ≠ [] := fun x hx => (hl x hx).classname
  have hother : ∀ x ∈ l, x.classname ≠ name := fun x hx he =>
    habs (List.mem_map.2 ⟨x.entry, List.mem_map_of_mem hx, he⟩)
  have hf : f name = 0 := by
    by_contra hne
    exact habs (hrep.mem_keys.2 hne)
  by_cases hz : w = 0
  · refine ⟨l, ?_, ⟨l, rfl, hl, hlen, ?_⟩⟩
    · rw [setHostweightTable_absent hread hnew.classname hother, if_pos hz, Option.map_some, hread.classes hnamed]
    · rw [hz]
      exact hrep.leave hf
  · have hlt : l.length < maxHostWeightClassNum := lt_of_le_of_ne hlen (hroom.resolve_left hz)
    refine ⟨_, setHostweightTable_add hread hnamed hnew.classname hother hz hlt, ⟨_, rfl, fun x hx => ?_, ?_, ?_⟩⟩
    · rcases List.mem_append.1 hx with hx | hx
      · exact hl x hx
      · rw [List.mem_singleton.1 hx]
        exact hnew
    · rw [List.length_append, List.length_singleton]
      exact hlt
    · rw [List.map_append, List.map_singleton]
      exact hrep.add hf fun hc => hz (BitVec.eq_of_toNat_eq hc)

end

/-- A refused call leaves the file; any other does to it what an update does to the map. -/
theorem FileMap.weightSet {file : List Char} {f : List Char →₀ Nat} (h : FileMap file f) {call : WeightCall}
    (hc : call.Proper) :
    (call.Refused (storedClasses file) →
      Xha.weightSet .success call.classname call.weight file = (.invalidParameter, file)) ∧
    (¬ call.Refused (storedClasses file) →
      (Xha.weightSet .success call.classname call.weight file).1 = .success ∧
      FileMap (Xha.weightSet .success call.classname call.weight file).2 (f.update call.name call.weight.toNat)) := by
  obtain ⟨l, rfl, hl, hlen, hrep⟩ := h.text
  have hread := readHostweightFile_textOf hl hlen
  have hnamed : ∀ e ∈ l, e.classname ≠ [] := fun e he => (hl e he).classname
  have hclasses : storedClasses (textOf l) = l.map HostWeight.entry := by
    rw [storedClasses, hread.classes hnamed]
  rw [hclasses]
  constructor
  · intro hr
    by_cases hw : maxHostWeightValue < call.weight.toNat
    · rw [Xha.weightSet, if_pos hw]
    · by_cases hb : call.classname = builtinHostWeightClassname
      · rw [Xha.weightSet, if_neg hw, if_pos hb]
      · -- the table is full
        obtain ⟨hz, habs, hfull⟩ := (hr.resolve_left hw).resolve_left hb
        have hother : ∀ x ∈ l, x.classname ≠ call.name := fun x hx he =>
          habs (List.mem_map.2 ⟨x.entry, List.mem_map_of_mem hx, he⟩)
        rw [List.length_map] at hfull
        rw [weightSet_checked hc (Nat.le_of_not_lt hw) hb,
          setHostweightTable_full hread hnamed hc.name_ne_nil hother hz hfull]
  · intro hr
    have hw : call.weight.toNat ≤ maxHostWeightValue := Nat.le_of_not_lt fun hc => hr (.inl hc)
    have hb : call.classname ≠ builtinHostWeightClassname := fun hc => hr (.inr (.inl hc))
    have hset : ∃ l', (setHostweightTable (readHostweightFile (textOf l)) call.name call.weight).map WeightTable.classes =
        some l' ∧ FileMap (textOf l') (f.update call.name call.weight.toNat) := by
      by_cases hpresent : call.name ∈ (l.map HostWeight.entry).map Prod.fst
      · exact FileMap.set_present hl hlen hrep (hc.entry hw) hpresent
      · refine FileMap.set_absent hl hlen hrep (hc.entry hw) hpresent ?_
        by_contra hno
        rw [not_or, not_not] at hno
        exact hr (.inr (.inr ⟨hno.1, hpresent, by rw [List.length_map]; exact hno.2⟩))
    obtain ⟨l', hset, hmap⟩ := hset
    rw [weightSet_updates hc hw hb hset]
    exact ⟨rfl, hmap⟩

/-! ## The weight of the host -/

theorem hostweightUpdate_eq (wtable newwtable : WeightTable) : hostweightUpdate wtable newwtable = newwtable := by
  have hloop : ∀ i < maxHostWeightClassNum, (hostweightUpdate wtable newwtable).slots[i]? = newwtable.slots[i]? := by
    refine forRange_inv (fun k (t : WeightTable) => ∀ i < k, t.slots[i]? = newwtable.slots[i]?)
      (fun i hi => absurd hi (Nat.not_lt_zero i)) fun k t hk ht i hi => ?_
    have hlt : k < t.slots.length := by rw [t.length_eq]; exact hk
    have hlt' : k < newwtable.slots.length := by rw [newwtable.length_eq]; exact hk
    rw [WeightTable.set_slots]
    by_cases hik : i = k
    · subst hik
      rw [List.getElem?_set_self hlt, List.getD_eq_getElem?_getD, List.getElem?_eq_getElem hlt', Option.getD_some]
    · rw [List.getElem?_set_ne (Ne.symm hik)]
      exact ht i (by omega)
  have hslots : (hostweightUpdate wtable newwtable).slots = newwtable.slots := by
    refine List.ext_getElem? fun i => ?_
    by_cases hi : i < maxHostWeightClassNum
    · exact hloop i hi
    · rw [List.getElem?_eq_none (by rw [WeightTable.length_eq]; omega),
        List.getElem?_eq_none (by rw [WeightTable.length_eq]; omega)]
  cases h : hostweightUpdate wtable newwtable
  cases newwtable
  rw [h] at hslots
  cases hslots
  rfl

/-- Weights that fit add up without overflow; free slots add nothing. -/
theorem foldl_weight (l : List HostWeight) (acc : MtcU32)
    (hfit : acc.toNat + ((l.filter fun e => e.classname ≠ []).map fun e => e.weight.toNat).sum < 2 ^ 32) :
    (l.foldl (fun weight e => if e.classname = [] then weight else weight + e.weight) acc).toNat =
      acc.toNat + ((l.filter fun e => e.classname ≠ []).map fun e => e.weight.toNat).sum := by
  induction l generalizing acc with
  | nil => simp
  | cons e l ih =>
    rw [List.foldl_cons]
    by_cases he : e.classname = []
    · rw [if_pos he]
      rw [List.filter_cons_of_neg (by simp [he])] at hfit ⊢
      exact ih acc hfit
    · rw [if_neg he]
      rw [List.filter_cons_of_pos (by simp [he]), List.map_cons, List.sum_cons, ← Nat.add_assoc] at hfit ⊢
      have hadd : (acc + e.weight).toNat = acc.toNat + e.weight.toNat := by
        rw [BitVec.toNat_add, Nat.mod_eq_of_lt (by omega)]
      rw [ih (acc + e.weight) (by rw [hadd]; exact hfit), hadd]

/-- Sixteen weights of at most 65535 fit. -/
theorem sum_classes_le {t : WeightTable} (h : ∀ e ∈ t.classes, e.weight.toNat ≤ maxHostWeightValue) :
    (t.classes.map fun e => e.weight.toNat).sum ≤ maxHostWeightClassNum * maxHostWeightValue := by
  have hlen : t.classes.length ≤ maxHostWeightClassNum := by
    have := List.length_filter_le (fun e => decide (e.classname ≠ [])) t.slots
    rw [t.length_eq] at this
    exact this
  refine le_trans (List.sum_le_card_nsmul _ maxHostWeightValue fun w hw => ?_) ?_
  · obtain ⟨e, he, rfl⟩ := List.mem_map.1 hw
    exact h e he
  · rw [List.length_map, smul_eq_mul]
    exact Nat.mul_le_mul_right _ hlen

theorem calcHostweight_toNat {t : WeightTable} (h : ∀ e ∈ t.classes, e.weight.toNat ≤ maxHostWeightValue) :
    (calcHostweight t).toNat = 1 + (t.classes.map fun e => e.weight.toNat).sum :=
  foldl_weight _ _ (lt_of_le_of_lt (Nat.add_le_add_left (sum_classes_le h) _) (by decide))

/-- The daemon's weight is one plus the sum of the map. -/
theorem FileMap.reload {file : List Char} {f : List Char →₀ Nat} (h : FileMap file f) (weightTable : WeightTable)
    (t : Host) : (hostweightReload file weightTable t).2.sm.weight.toNat = 1 + f.sum fun _ w => w := by
  obtain ⟨hstored, -⟩ := h.stored
  have hsum : f.sum (fun _ w => w) = ((storedClasses file).map Prod.snd).sum := hstored.sum id
  have hstoredSum : ((storedClasses file).map Prod.snd) =
      (readHostweightFile file).classes.map fun e => e.weight.toNat := by
    rw [storedClasses, List.map_map]
    rfl
  have hcalc : (calcHostweight (readHostweightFile file)).toNat = 1 + ((storedClasses file).map Prod.snd).sum := by
    rw [hstoredSum]
    refine calcHostweight_toNat ?_
    obtain ⟨l, rfl, hl, hlen, -⟩ := h.text
    rw [(readHostweightFile_textOf hl hlen).classes fun e he => (hl e he).classname]
    exact fun e he => (hl e he).weight
  have hweight : (hostweightReload file weightTable t).2.sm.weight = calcHostweight (readHostweightFile file) := by
    have hunlock : ∀ u : Host, u.smWriterUnlock.sm.weight = u.sm.weight := fun u => by
      unfold Host.smWriterUnlock
      split <;> rfl
    rw [hostweightReload, hostweightUpdate_eq, hostweightSetSm]
    dsimp only
    rw [hunlock]
    split
    · rfl
    · rename_i heq
      exact not_not.1 heq
  rw [hweight, hcalc, hsum]

/-! ## Sequences of calls -/

/-- The file after some calls, and the calls that were not refused. -/
structure WeightHistory where
  file : List Char
  accepted : List WeightCall

def WeightHistory.call (s : WeightHistory) (call : WeightCall) : WeightHistory :=
  let r := weightSet .success call.classname call.weight s.file
  ⟨r.2, if r.1 = .success then s.accepted ++ [call] else s.accepted⟩

/-- The calls, one after the other, on an empty file. -/
def weightCalls (calls : List WeightCall) : WeightHistory := calls.foldl .call ⟨[], []⟩

/-- The last weight set for a class. -/
def lastWeight (accepted : List WeightCall) (name : List Char) : Nat :=
  ((accepted.reverse.find? fun call => call.name = name).map fun call => call.weight.toNat).getD 0

theorem lastWeight_append (accepted : List WeightCall) (call : WeightCall) (name : List Char) :
    lastWeight (accepted ++ [call]) name = if call.name = name then call.weight.toNat else lastWeight accepted name := by
  rw [lastWeight, List.reverse_append, List.reverse_singleton, List.singleton_append, List.find?_cons]
  by_cases h : call.name = name
  · simp [h]
  · simp [h, lastWeight]

/-- After any calls the file is the text of the map that the accepted calls define. -/
theorem weightCalls_fileMap (calls : List WeightCall) (h : ∀ call ∈ calls, call.Proper) :
    ∃ f, FileMap (weightCalls calls).file f ∧ ∀ name, f name = lastWeight (weightCalls calls).accepted name := by
  have hstep : ∀ (calls : List WeightCall) (s : WeightHistory), (∀ call ∈ calls, call.Proper) →
      (∃ f, FileMap s.file f ∧ ∀ name, f name = lastWeight s.accepted name) →
      ∃ f, FileMap (calls.foldl .call s).file f ∧ ∀ name, f name = lastWeight (calls.foldl .call s).accepted name := by
    intro calls
    induction calls with
    | nil => exact fun s _ hs => hs
    | cons call calls ih =>
      rintro s hp ⟨f, hf, hlast⟩
      obtain ⟨hcall, hcalls⟩ := List.forall_mem_cons.1 hp
      rw [List.foldl_cons]
      refine ih _ hcalls ?_
      obtain ⟨hrefused, hset⟩ := hf.weightSet hcall
      by_cases hr : call.Refused (storedClasses s.file)
      · rw [WeightHistory.call, hrefused hr]
        exact ⟨f, hf, hlast⟩
      · obtain ⟨hok, hmap⟩ := hset hr
        rw [WeightHistory.call, hok]
        refine ⟨_, hmap, fun name => ?_⟩
        rw [if_pos rfl, lastWeight_append, ← hlast name, Finsupp.coe_update, Function.update_apply]
        by_cases hn : call.name = name
        · rw [if_pos hn, if_pos hn.symm]
        · rw [if_neg hn, if_neg (Ne.symm hn)]
  exact hstep calls ⟨[], []⟩ h ⟨0, fileMap_nil, fun name => rfl⟩

/-- The weight file is a map: after any sequence of calls it holds each class once, with the last weight set for
it unless that is 0; the next call is refused exactly for too large a weight, the builtin class or want of room,
and then leaves the file; and a reload sets the weight of the host to one plus the sum. -/
theorem weight_file_is_map (calls : List WeightCall) (h : ∀ call ∈ calls, call.Proper) :
    ((storedClasses (weightCalls calls).file).map Prod.fst).Nodup ∧
    (∀ name w, (name, w) ∈ storedClasses (weightCalls calls).file ↔
      w ≠ 0 ∧ lastWeight (weightCalls calls).accepted name = w) ∧
    (∀ call : WeightCall, call.Proper →
      ((weightSet .success call.classname call.weight (weightCalls calls).file).1 ≠ .success ↔
        call.Refused (storedClasses (weightCalls calls).file)) ∧
      ((weightSet .success call.classname call.weight (weightCalls calls).file).1 ≠ .success →
        (weightSet .success call.classname call.weight (weightCalls calls).file).2 = (weightCalls calls).file)) ∧
    ∀ (weightTable : WeightTable) (t : Host),
      (hostweightReload (weightCalls calls).file weightTable t).2.sm.weight.toNat =
        1 + ((storedClasses (weightCalls calls).file).map Prod.snd).sum := by
  obtain ⟨f, hf, hlast⟩ := weightCalls_fileMap calls h
  obtain ⟨hstored, -⟩ := hf.stored
  refine ⟨hstored.nodup, fun name w => ?_, fun call hcall => ?_, fun weightTable t => ?_⟩
  · rw [hstored.mem_iff, hlast]
  · obtain ⟨hrefused, hset⟩ := hf.weightSet hcall
    have hiff : (weightSet .success call.classname call.weight (weightCalls calls).file).1 ≠ .success ↔
        call.Refused (storedClasses (weightCalls calls).file) := by
      constructor
      · intro hno
        by_contra hr
        exact hno (hset hr).1
      · intro hr
        rw [hrefused hr]
        simp
    exact ⟨hiff, fun hno => by rw [hrefused (hiff.1 hno)]⟩
  · rw [hf.reload weightTable t]
    congr 1
    exact hstored.sum id

/-- Two classes are set, one of them again and one removed. -/
def someCalls : List WeightCall :=
  [⟨['d', 'b'], 3⟩, ⟨['w', 'e', 'b'], 2⟩, ⟨['d', 'b'], 70000⟩, ⟨['d', 'b'], 40⟩, ⟨['w', 'e', 'b'], 0⟩]

theorem weight_file_is_map_someCalls :
    storedClasses (weightCalls someCalls).file = [(['d', 'b'], 40)] ∧
      (hostweightReload (weightCalls someCalls).file .empty (.initial 0)).2.sm.weight.toNat = 41 := by
  have hnames : (someCalls.all fun call => call.classname ≠ [] && call.classname.all isGraph) = true := by rfl
  have hproper : ∀ call ∈ someCalls, call.Proper := by
    intro call hcall
    have hname := List.all_eq_true.1 hnames call hcall
    rw [Bool.and_eq_true, decide_eq_true_eq, List.all_eq_true] at hname
    exact ⟨hname.1, hname.2⟩
  have hfile : storedClasses (weightCalls someCalls).file = [(['d', 'b'], 40)] := by decide +kernel
  obtain ⟨-, -, -, hreload⟩ := weight_file_is_map someCalls hproper
  refine ⟨hfile, ?_⟩
  rw [hreload, hfile]
  rfl

end Xha
