/-
Finite maps kept as lists of entries: a list represents a finitely supported function when its keys are
distinct and its entries are the arguments with a value that is not zero. What replacing, removing and adding
an entry does to the function, and how the list shows its number of arguments and its sum. For Mathlib's own finite
maps, the multiset of entries around an update.
-/
import Mathlib.Algebra.BigOperators.Finsupp.Basic
import Mathlib.Data.Finmap
import Mathlib.Data.Finsupp.Basic

namespace FiniteMap

variable {α β : Type} [Zero β] {l l₁ l₂ : List (α × β)} {f : α →₀ β} {a : α} {b b' : β}

/-- The list has one entry for each argument of the function with a value. -/
structure Represents (l : List (α × β)) (f : α →₀ β) : Prop where
  nodup : (l.map Prod.fst).Nodup
  mem_iff : ∀ a b, (a, b) ∈ l ↔ b ≠ 0 ∧ f a = b

theorem Represents.nil : Represents ([] : List (α × β)) 0 := by
  refine ⟨List.nodup_nil, fun a b => ⟨fun h => (List.not_mem_nil h).elim, fun h => ?_⟩⟩
  exact absurd h.2.symm h.1

theorem Represents.mem_keys (h : Represents l f) : a ∈ l.map Prod.fst ↔ f a ≠ 0 := by
  rw [List.mem_map]
  constructor
  · rintro ⟨⟨a', b⟩, hm, rfl⟩
    obtain ⟨hb, hf⟩ := (h.mem_iff a' b).1 hm
    rw [show (a', b).1 = a' from rfl, hf]
    exact hb
  · intro ha
    exact ⟨(a, f a), (h.mem_iff a (f a)).2 ⟨ha, rfl⟩, rfl⟩

/-- The keys of the list are the support of the function. -/
theorem Represents.keys [DecidableEq α] (h : Represents l f) : (l.map Prod.fst).toFinset = f.support := by
  ext a
  rw [List.mem_toFinset, h.mem_keys, Finsupp.mem_support_iff]

/-- Sums over the function are sums over the list. -/
theorem Represents.sum {γ : Type} [AddCommMonoid γ] (g : β → γ) (h : Represents l f) :
    f.sum (fun _ b => g b) = (l.map fun p => g p.2).sum := by
  classical
  have hval : ∀ p ∈ l, f p.1 = p.2 := fun p hp => ((h.mem_iff p.1 p.2).1 hp).2
  rw [Finsupp.sum, ← h.keys, List.sum_toFinset _ h.nodup, List.map_map]
  refine congrArg List.sum (List.map_congr_left fun p hp => ?_)
  rw [Function.comp_apply, hval p hp]

/-- No other entry has the key of an entry. -/
theorem Represents.unique_key (h : Represents (l₁ ++ (a, b) :: l₂) f) : ∀ p ∈ l₁ ++ l₂, p.1 ≠ a := by
  have hnd := h.nodup
  rw [List.map_append, List.map_cons, List.nodup_middle, List.nodup_cons, ← List.map_append] at hnd
  intro p hp he
  exact hnd.1 (List.mem_map.2 ⟨p, hp, he⟩)

/-- What an entry says after an update, in terms of the other entries. -/
theorem update_iff (hm : ∀ a' v, (a', v) ∈ l ↔ a' ≠ a ∧ v ≠ 0 ∧ f a' = v) (a' : α) (v : β) :
    ((a', v) ∈ l ∨ (b ≠ 0 ∧ a' = a ∧ v = b)) ↔ v ≠ 0 ∧ f.update a b a' = v := by
  classical
  by_cases ha : a' = a
  · subst ha
    rw [hm, Finsupp.coe_update, Function.update_self]
    constructor
    · rintro (h | ⟨hb, -, rfl⟩)
      · exact absurd rfl h.1
      · exact ⟨hb, rfl⟩
    · rintro ⟨hv, rfl⟩
      exact .inr ⟨hv, rfl, rfl⟩
  · rw [hm, Finsupp.coe_update, Function.update_of_ne ha]
    constructor
    · rintro (h | h)
      · exact h.2
      · exact absurd h.2.1 ha
    · exact fun h => .inl ⟨ha, h⟩

/-- The entries besides the one of `a`. -/
theorem Represents.others (h : Represents (l₁ ++ (a, b) :: l₂) f) (a' : α) (v : β) :
    (a', v) ∈ l₁ ++ l₂ ↔ a' ≠ a ∧ v ≠ 0 ∧ f a' = v := by
  have hkey := h.unique_key
  rw [← h.mem_iff a' v, List.perm_middle.mem_iff, List.mem_cons]
  constructor
  · intro hm
    exact ⟨hkey _ hm, .inr hm⟩
  · rintro ⟨hne, he | hm⟩
    · exact absurd (congrArg Prod.fst he) hne
    · exact hm

theorem Represents.replace (h : Represents (l₁ ++ (a, b) :: l₂) f) (hb : b' ≠ 0) :
    Represents (l₁ ++ (a, b') :: l₂) (f.update a b') := by
  refine ⟨?_, fun a' v => ?_⟩
  · have hnd := h.nodup
    rw [List.map_append, List.map_cons] at hnd ⊢
    exact hnd
  · rw [← update_iff (b := b') h.others a' v, List.perm_middle.mem_iff, List.mem_cons, Prod.mk.injEq]
    constructor
    · rintro (⟨rfl, rfl⟩ | hm)
      · exact .inr ⟨hb, rfl, rfl⟩
      · exact .inl hm
    · rintro (hm | ⟨-, rfl, rfl⟩)
      · exact .inr hm
      · exact .inl ⟨rfl, rfl⟩

theorem Represents.remove (h : Represents (l₁ ++ (a, b) :: l₂) f) : Represents (l₁ ++ l₂) (f.update a 0) := by
  refine ⟨?_, fun a' v => ?_⟩
  · have hnd := h.nodup
    rw [List.map_append, List.map_cons, List.nodup_middle, List.nodup_cons, ← List.map_append] at hnd
    exact hnd.2
  · rw [← update_iff (b := 0) h.others a' v]
    constructor
    · exact .inl
    · rintro (hm | hm)
      · exact hm
      · exact absurd rfl hm.1

/-- The entries when there is none for `a`. -/
theorem Represents.absent (h : Represents l f) (ha : f a = 0) (a' : α) (v : β) :
    (a', v) ∈ l ↔ a' ≠ a ∧ v ≠ 0 ∧ f a' = v := by
  rw [h.mem_iff]
  constructor
  · rintro ⟨hv, hf⟩
    refine ⟨?_, hv, hf⟩
    rintro rfl
    exact hv (hf.symm.trans ha)
  · exact And.right

theorem Represents.add (h : Represents l f) (ha : f a = 0) (hb : b ≠ 0) : Represents (l ++ [(a, b)]) (f.update a b) := by
  refine ⟨?_, fun a' v => ?_⟩
  · rw [List.map_append, List.nodup_append_comm]
    refine List.nodup_cons.2 ⟨fun hm => h.mem_keys.1 (by simpa using hm) ha, ?_⟩
    simpa using h.nodup
  · rw [← update_iff (b := b) (h.absent ha) a' v, List.mem_append, List.mem_singleton, Prod.mk.injEq]
    constructor
    · rintro (hm | ⟨rfl, rfl⟩)
      · exact .inl hm
      · exact .inr ⟨hb, rfl, rfl⟩
    · rintro (hm | ⟨-, rfl, rfl⟩)
      · exact .inl hm
      · exact .inr ⟨rfl, rfl⟩

theorem Represents.leave (h : Represents l f) (ha : f a = 0) : Represents l (f.update a 0) := by
  refine ⟨h.nodup, fun a' v => ?_⟩
  rw [← update_iff (b := 0) (h.absent ha) a' v]
  constructor
  · exact .inl
  · rintro (hm | hm)
    · exact hm
    · exact absurd rfl hm.1

/-! ## The entries of a `Finmap` -/

section

variable {κ : Type} {β : κ → Type} [DecidableEq κ] {m : Finmap β} {a : κ} {b : β a}

/-- The entry of a key, apart from the others. -/
theorem entries_of_lookup (h : m.lookup a = some b) : m.entries = ⟨a, b⟩ ::ₘ (m.erase a).entries := by
  have hput : (m.erase a).insert a b = m := by
    refine Finmap.ext_lookup fun x => ?_
    by_cases hx : x = a
    · subst hx
      rw [Finmap.lookup_insert, h]
    · rw [Finmap.lookup_insert_of_ne _ hx, Finmap.lookup_erase_ne hx]
  rw [← Finmap.entries_insert_of_notMem Finmap.notMem_erase_self, hput]

theorem erase_insert (m : Finmap β) (a : κ) (b : β a) : (m.insert a b).erase a = m.erase a := by
  refine Finmap.ext_lookup fun x => ?_
  by_cases hx : x = a
  · subst hx
    rw [Finmap.lookup_erase, Finmap.lookup_erase]
  · rw [Finmap.lookup_erase_ne hx, Finmap.lookup_erase_ne hx, Finmap.lookup_insert_of_ne _ hx]

theorem erase_erase (m : Finmap β) (a : κ) : (m.erase a).erase a = m.erase a := by
  refine Finmap.ext_lookup fun x => ?_
  by_cases hx : x = a
  · subst hx
    rw [Finmap.lookup_erase, Finmap.lookup_erase]
  · rw [Finmap.lookup_erase_ne hx]

theorem erase_of_lookup_eq_none (h : m.lookup a = none) : m.erase a = m := by
  refine Finmap.ext_lookup fun x => ?_
  by_cases hx : x = a
  · subst hx
    rw [Finmap.lookup_erase, h]
  · rw [Finmap.lookup_erase_ne hx]

/-- A filter of the entries depends on its values at them only. -/
theorem filterMap_entries_congr {γ : Type} {f g : Sigma β → Option γ}
    (h : ∀ a b, m.lookup a = some b → f ⟨a, b⟩ = g ⟨a, b⟩) : m.entries.filterMap f = m.entries.filterMap g := by
  have hmem : ∀ e ∈ m.entries, f e = g e := fun e he => h e.1 e.2 (Finmap.mem_lookup_iff.2 he)
  generalize m.entries = s at hmem
  induction s using Quot.inductionOn with
  | h l => exact congrArg Multiset.ofList (List.filterMap_congr hmem)

/-- No other entry has the key. -/
theorem fst_ne_of_mem_erase {e : Sigma β} (he : e ∈ (m.erase a).entries) : e.1 ≠ a := by
  have hm : e.1 ∈ m.erase a := Finmap.mem_def.2 (Multiset.mem_map_of_mem _ he)
  exact (Finmap.mem_erase.1 hm).1

end

end FiniteMap
