/-
Counting loops as folds over `List.range`: the invariant rule for `for (i = 0; i < n; i++)`, and the
closed form of a loop that updates one cell of an array a turn. Loops over a list whose first error ends
them, as folds in `Except`.
-/
import Mathlib.Data.List.Range
import Mathlib.Logic.Function.Basic

namespace Loop

/-- `for (i = 0; i < n; i++) s = f s i`. -/
def forRange {σ : Type} (n : Nat) (s : σ) (f : σ → Nat → σ) : σ := (List.range n).foldl f s

@[simp] theorem forRange_zero {σ : Type} (s : σ) (f : σ → Nat → σ) : forRange 0 s f = s := rfl

theorem forRange_succ {σ : Type} (n : Nat) (s : σ) (f : σ → Nat → σ) :
    forRange (n + 1) s f = f (forRange n s f) n := by
  simp [forRange, List.range_succ]

/-- The invariant rule: what holds before the loop and is kept by each turn holds after it. -/
theorem forRange_inv {σ : Type} {n : Nat} {s : σ} {f : σ → Nat → σ} (P : Nat → σ → Prop) (h0 : P 0 s)
    (hs : ∀ i t, i < n → P i t → P (i + 1) (f t i)) : P n (forRange n s f) := by
  induction n with
  | zero => exact h0
  | succ n ih =>
    rw [forRange_succ]
    exact hs n _ (Nat.lt_succ_self n) (ih fun i t hi => hs i t (Nat.lt_succ_of_lt hi))

/-- Two loops whose turns keep a relation end in related states. -/
theorem forRange_rel {σ τ : Type} {n : Nat} {s : σ} {t : τ} {f : σ → Nat → σ} {g : τ → Nat → τ}
    (R : σ → τ → Prop) (h0 : R s t) (hs : ∀ i a b, i < n → R a b → R (f a i) (g b i)) :
    R (forRange n s f) (forRange n t g) := by
  induction n with
  | zero => exact h0
  | succ n ih =>
    rw [forRange_succ, forRange_succ]
    exact hs n _ _ (Nat.lt_succ_self n) (ih fun i a b hi => hs i a b (Nat.lt_succ_of_lt hi))

/-- A loop that rewrites cell `i` in turn `i` rewrites exactly the cells below `n`. -/
theorem forRange_update {α : Type} (n : Nat) (a : Nat → α) (g : Nat → α → α) (j : Nat) :
    forRange n a (fun a i => Function.update a i (g i (a i))) j = if j < n then g j (a j) else a j := by
  induction n with
  | zero => simp
  | succ n ih =>
    rw [forRange_succ]
    by_cases hj : j = n
    · subst hj; simp [ih]
    · have : j < n + 1 ↔ j < n := by omega
      simp only [Function.update_of_ne hj, ih, this]

/-! ## Loops that can fail -/

section

variable {ε σ τ α : Type} {f : σ → α → Except ε σ}

@[simp] theorem foldlM_nil_ok {s s' : σ} : ([] : List α).foldlM f s = .ok s' ↔ s = s' := by
  simp [pure, Except.pure]

theorem foldlM_cons_ok {x : α} {l : List α} {s s' : σ} :
    (x :: l).foldlM f s = .ok s' ↔ ∃ t, f s x = .ok t ∧ l.foldlM f t = .ok s' := by
  rw [List.foldlM_cons]
  cases f s x <;> simp [bind, Except.bind]

/-- The invariant rule of a loop that succeeds. -/
theorem foldlM_inv {l : List α} {s s' : σ} (P : σ → Prop) (h : l.foldlM f s = .ok s') (h0 : P s)
    (hs : ∀ x ∈ l, ∀ t t', f t x = .ok t' → P t → P t') : P s' := by
  induction l generalizing s with
  | nil => exact foldlM_nil_ok.mp h ▸ h0
  | cons x l ih =>
    obtain ⟨t, hx, hl⟩ := foldlM_cons_ok.mp h
    exact ih hl (hs x List.mem_cons_self _ _ hx h0) fun y hy => hs y (List.mem_cons_of_mem _ hy)

/-- Every element of a loop that succeeds is taken. -/
theorem foldlM_mem {l : List α} {s s' : σ} (h : l.foldlM f s = .ok s') {x : α} (hx : x ∈ l) : ∃ t t', f t x = .ok t' := by
  induction l generalizing s with
  | nil => cases hx
  | cons y l ih =>
    obtain ⟨t, hy, hl⟩ := foldlM_cons_ok.mp h
    rcases List.mem_cons.mp hx with rfl | hx
    · exact ⟨s, t, hy⟩
    · exact ih hl hx

/-- A loop that succeeds does to a part of its state what each turn does to it. -/
theorem foldlM_proj {l : List α} {s s' : σ} (π : σ → τ) (g : τ → α → τ) (h : l.foldlM f s = .ok s')
    (hs : ∀ t x t', f t x = .ok t' → π t' = g (π t) x) : π s' = l.foldl g (π s) := by
  induction l generalizing s with
  | nil => rw [foldlM_nil_ok.mp h]; rfl
  | cons x l ih =>
    obtain ⟨t, hx, hl⟩ := foldlM_cons_ok.mp h
    rw [ih hl, hs _ _ _ hx, List.foldl_cons]

/-- Elements that every turn skips do not matter. -/
theorem foldlM_filter {l : List α} {s : σ} (p : α → Bool) (hp : ∀ t x, p x = false → f t x = .ok t) :
    l.foldlM f s = (l.filter p).foldlM f s := by
  induction l generalizing s with
  | nil => rfl
  | cons x l ih =>
    cases hx : p x with
    | true =>
      rw [List.filter_cons_of_pos hx, List.foldlM_cons, List.foldlM_cons]
      exact bind_congr fun t => ih
    | false =>
      rw [List.filter_cons_of_neg (by simp [hx]), List.foldlM_cons, hp s x hx, ← ih]
      rfl

/-- A loop succeeds when every turn does; the invariant speaks of the elements still to come. -/
theorem foldlM_total {l : List α} {s : σ} (I : List α → σ → Prop) (h0 : I l s)
    (hs : ∀ x l t, I (x :: l) t → ∃ t', f t x = .ok t' ∧ I l t') : ∃ s', l.foldlM f s = .ok s' ∧ I [] s' := by
  induction l generalizing s with
  | nil => exact ⟨s, rfl, h0⟩
  | cons x l ih =>
    obtain ⟨t, hx, ht⟩ := hs x l s h0
    obtain ⟨s', hl, hs'⟩ := ih ht
    exact ⟨s', foldlM_cons_ok.mpr ⟨t, hx, hl⟩, hs'⟩

end

end Loop
