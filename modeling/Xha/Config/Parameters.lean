/-
The numeric parameters of a configuration: what the `parameters` elements of a document leave in them, and the
number that a text writes against what `strtol` and a 32-bit word make of it.
-/
import Xha.Config.Accepted
import Xha.Lib.Wrap

namespace Xha

open Loop Wrap

/-! ## The parameters of an accepted document -/

/-- What a child of a `parameters` element does to the parameters. -/
def parameterTurn (f : Parameter → MtcU32) (sub : XmlNode) : Parameter → MtcU32 :=
  match Parameter.tbl.find? fun p => sub.name = p.name with
  | none => f
  | some p => sub.txt.elim f fun txt => Function.update f p (BitVec.ofInt 32 (strtol txt.chars).1)

theorem parameterElement_parameter {c c' : HaConfigCommon} {sub : XmlNode} (h : parameterElement c sub = .ok c') :
    c'.parameter = parameterTurn c.parameter sub := by
  unfold parameterElement at h
  unfold parameterTurn
  cases hp : Parameter.tbl.find? fun p => sub.name = p.name with
  | none =>
    rw [hp] at h
    cases h
    rfl
  | some p =>
    rw [hp] at h
    cases htxt : sub.txt with
    | none => simp [htxt] at h
    | some txt =>
      simp only [htxt, ite_not, ne_eq] at h
      split at h
      · cases h
        rfl
      · cases h

theorem commonElement_parameter {getaddrinfo : CString → Option AddrInfo} {c c' : HaConfigCommon} {sub : XmlNode}
    (h : commonElement getaddrinfo c sub = .ok c') :
    c'.parameter = if sub.name = "parameters" then sub.children.foldl parameterTurn c.parameter else c.parameter := by
  unfold commonElement at h
  by_cases hp : sub.name = "parameters"
  · rw [if_pos hp]
    simp only [hp, String.reduceEq, if_false, if_true] at h
    exact foldlM_proj (·.parameter) parameterTurn h fun t x t' ht => parameterElement_parameter ht
  · rw [if_neg hp]
    by_cases hid : sub.name = "host"
    · simp only [hid, String.reduceEq, if_false, if_true] at h
      exact (walkHostConfig_rest h).2
    · rw [if_neg hid, if_neg hp] at h
      dsimp only at h
      repeat' split at h
      all_goals first | (cases h; rfl) | cases h

/-- The parameters are the defaults, with the `parameters` elements applied in order. -/
theorem walkCommonConfig_parameter {getaddrinfo : CString → Option AddrInfo} {c c' : HaConfigCommon} {cur : XmlNode}
    (h : walkCommonConfig getaddrinfo c cur = .ok c') :
    c'.parameter = (cur.named "parameters").foldl (fun f sub => sub.children.foldl parameterTurn f) c.parameter := by
  obtain ⟨d, hf, rfl⟩ := walkCommonConfig_ok h
  rw [XmlNode.named, List.foldl_filter]
  refine foldlM_proj (·.parameter) _ hf fun t sub t' ht => ?_
  simpa using commonElement_parameter ht

theorem poolDoc_parameter {getaddrinfo : CString → Option AddrInfo} {hosts : List (CString × CString)}
    {params : List XmlNode} {me : CString} {c : HaConfigData}
    (h : interpretConfigFile getaddrinfo (.document (poolDoc hosts params me)) = .ok c) :
    c.common.parameter = params.foldl parameterTurn Parameter.defaultValue := by
  rw [walkCommonConfig_parameter ((poolDoc_lists hosts params me).walked h).1, poolCommon_named]
  simp [poolSettings, XmlNode.leaf, HaConfigCommon.initial]

/-! ## Numbers -/

/-- The number that a text writes: white space, a sign, and decimal digits up to its end. -/
def writtenInt (str : List Char) : Option Int :=
  let rest := str.dropWhile isSpace
  let digits := if rest.head? = some '-' ∨ rest.head? = some '+' then rest.tail else rest
  if digits ≠ [] ∧ digits.all Char.isDigit = true then
    some (if rest.head? = some '-' then -(Nat.ofDigitChars 10 digits 0 : Int) else Nat.ofDigitChars 10 digits 0)
  else none

/-- The word holds the number that the text writes. -/
def Holds (txt : CString) (w : MtcU32) : Prop := ∃ v, writtenInt txt.chars = some v ∧ (w.toNat : Int) = v

/-- The text writes a number that an unsigned word can hold. -/
def FitsU32 (txt : CString) : Prop := ∃ v, writtenInt txt.chars = some v ∧ 0 ≤ v ∧ v < 2 ^ 32

/-- A `long` saturates. -/
def saturate (v : Int) : Int := max (min v (2 ^ 63 - 1)) (-2 ^ 63)

/-- `strtol` takes a text as a whole when it writes a number, or when it is empty. -/
theorem strtol_whole {str : List Char} (h : (strtol str).2 = []) :
    str = [] ∨ ∃ v, writtenInt str = some v ∧ (strtol str).1 = saturate v := by
  unfold strtol writtenInt at *
  dsimp only at h ⊢
  generalize str.dropWhile isSpace = rest at h ⊢
  generalize (if rest.head? = some '-' ∨ rest.head? = some '+' then rest.tail else rest) = digits at h ⊢
  unfold scanDigits at h ⊢
  by_cases hnil : digits.takeWhile Char.isDigit = []
  · left
    simpa [hnil] using h
  · right
    simp only [hnil, if_false] at h ⊢
    have hdigits : ∀ chr ∈ digits, chr.isDigit = true := List.dropWhile_eq_nil_iff.1 h
    have htake : digits.takeWhile Char.isDigit = digits := List.takeWhile_eq_self_iff.2 hdigits
    rw [htake] at hnil ⊢
    refine ⟨_, if_pos ⟨hnil, List.all_eq_true.2 hdigits⟩, ?_⟩
    unfold saturate
    by_cases hneg : rest.head? = some '-'
    · simp only [hneg, decide_true, if_true]
      omega
    · simp only [hneg, decide_false, if_false, Bool.false_eq_true]
      omega

/-- A saturated number is what the word holds exactly when it fits. -/
theorem toNat_ofInt_saturate (v : Int) : ((BitVec.ofInt 32 (saturate v)).toNat : Int) = v ↔ 0 ≤ v ∧ v < 2 ^ 32 := by
  rw [toNat_ofInt_eq_emod, saturate]
  omega

/-- Of a text that `strtol` takes as a whole, the word holds the number exactly when there is one that fits. -/
theorem holds_strtol_iff {txt : CString} (h : (strtol txt.chars).2 = []) :
    Holds txt (BitVec.ofInt 32 (strtol txt.chars).1) ↔ FitsU32 txt := by
  unfold Holds FitsU32
  rcases strtol_whole h with hempty | ⟨v, hv, hvalue⟩
  · have hnone : writtenInt txt.chars = none := by rw [hempty]; rfl
    simp [hnone]
  · simp only [hv, hvalue, Option.some.injEq, exists_eq_left', toNat_ofInt_saturate]

end Xha
