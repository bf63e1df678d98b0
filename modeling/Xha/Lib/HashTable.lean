/-
Chained hash tables: an array of chains of entries, each entry in the chain of the hash of its key. What a walk of
a chain finds, and what linking and unlinking an entry does to the set of entries the table holds.
-/
import Mathlib.Data.List.Nodup
import Mathlib.Logic.Function.Basic

namespace HashTable

variable {κ α : Type} (hash : κ → Nat) (key : α → Option κ)

/-- The walk of a chain: the first entry with this key. -/
def find [DecidableEq κ] (t : Nat → List α) (k : κ) : Option α := (t (hash k)).find? fun a => decide (key a = some k)

/-- The entry becomes the head of its chain. -/
def insert (t : Nat → List α) (k : κ) (a : α) : Nat → List α := Function.update t (hash k) (a :: t (hash k))

/-- Unlinks the first entry with this key. -/
def delete [DecidableEq κ] (t : Nat → List α) (k : κ) : Nat → List α :=
  Function.update t (hash k) ((t (hash k)).eraseP fun a => decide (key a = some k))

/-- The table holds the entries that have a key, each once, and no two of them have the same key. -/
structure Holds (t : Nat → List α) : Prop where
  mem_iff : ∀ i a, a ∈ t i ↔ ∃ k, key a = some k ∧ hash k = i
  nodup : ∀ i, (t i).Nodup
  unique : ∀ a b k, key a = some k → key b = some k → a = b

variable {hash key} {t : Nat → List α} {k : κ} {a : α}

theorem Holds.empty (h : ∀ a, key a = none) : Holds hash key fun _ => [] := by
  refine ⟨fun i a => ?_, fun _ => List.nodup_nil, fun a b k ha => ?_⟩
  · rw [h a]
    simp
  · rw [h a] at ha
    cases ha

theorem Holds.mem (h : Holds hash key t) (ha : key a = some k) : a ∈ t (hash k) := (h.mem_iff _ _).2 ⟨k, ha, rfl⟩

/-- A walk finds the entry with the key, wherever in the chain it is. -/
theorem Holds.find_eq_some [DecidableEq κ] (h : Holds hash key t) : find hash key t k = some a ↔ key a = some k := by
  constructor
  · intro hf
    simpa using List.find?_some hf
  · intro ha
    cases hf : find hash key t k with
    | none =>
      have hno := List.find?_eq_none.1 hf a (h.mem ha)
      simp [ha] at hno
    | some b =>
      have hb : key b = some k := by simpa using List.find?_some hf
      rw [h.unique b a k hb ha]

theorem Holds.find_eq_none [DecidableEq κ] (h : Holds hash key t) : find hash key t k = none ↔ ∀ a, key a ≠ some k := by
  constructor
  · intro hf a ha
    rw [h.find_eq_some.2 ha] at hf
    cases hf
  · intro hno
    cases hf : find hash key t k with
    | none => rfl
    | some b => exact absurd (h.find_eq_some.1 hf) (hno b)

/-- Linking an entry under a key that no entry has. -/
theorem Holds.insert [DecidableEq α] (h : Holds hash key t) (ha : key a = none) (hk : ∀ b, key b ≠ some k) :
    Holds hash (Function.update key a (some k)) (insert hash t k a) := by
  have hout : ∀ i, a ∉ t i := by
    intro i hm
    obtain ⟨k', hk', -⟩ := (h.mem_iff i a).1 hm
    rw [ha] at hk'
    cases hk'
  refine ⟨fun i b => ?_, fun i => ?_, fun b b' k' hb hb' => ?_⟩
  · unfold HashTable.insert
    by_cases hba : b = a
    · subst hba
      by_cases hi : i = hash k
      · subst hi
        simp
      · rw [Function.update_of_ne hi, Function.update_self]
        simp [hout, Ne.symm hi]
    · rw [Function.update_of_ne hba, ← h.mem_iff]
      by_cases hi : i = hash k
      · subst hi
        simp [hba]
      · rw [Function.update_of_ne hi]
  · unfold HashTable.insert
    by_cases hi : i = hash k
    · subst hi
      rw [Function.update_self]
      exact List.nodup_cons.2 ⟨hout _, h.nodup _⟩
    · rw [Function.update_of_ne hi]
      exact h.nodup i
  · by_cases hba : b = a <;> by_cases hba' : b' = a
    · rw [hba, hba']
    · subst hba
      rw [Function.update_self, Option.some.injEq] at hb
      subst hb
      rw [Function.update_of_ne hba'] at hb'
      exact absurd hb' (hk b')
    · subst hba'
      rw [Function.update_self, Option.some.injEq] at hb'
      subst hb'
      rw [Function.update_of_ne hba] at hb
      exact absurd hb (hk b)
    · rw [Function.update_of_ne hba] at hb
      rw [Function.update_of_ne hba'] at hb'
      exact h.unique b b' k' hb hb'

/-- In the chain of an entry, the first entry with its key is the entry itself. -/
theorem Holds.mem_eraseP [DecidableEq κ] (h : Holds hash key t) (ha : key a = some k) (b : α) :
    b ∈ (t (hash k)).eraseP (fun a => decide (key a = some k)) ↔ b ≠ a ∧ b ∈ t (hash k) := by
  obtain ⟨c, l₁, l₂, -, hc, hl, he⟩ := List.exists_of_eraseP (h.mem ha) (p := fun a => decide (key a = some k)) (decide_eq_true ha)
  obtain rfl : c = a := h.unique c a k (by simpa using hc) ha
  have hnd := h.nodup (hash k)
  rw [hl, List.nodup_middle, List.nodup_cons] at hnd
  rw [he, hl, List.mem_append, List.mem_append, List.mem_cons]
  constructor
  · intro hb
    exact ⟨fun hbc => hnd.1 (List.mem_append.2 (hbc ▸ hb)), hb.imp_right .inr⟩
  · rintro ⟨hbc, hb | hb | hb⟩
    · exact .inl hb
    · exact absurd hb hbc
    · exact .inr hb

/-- Unlinking the entry with a key. -/
theorem Holds.delete [DecidableEq κ] [DecidableEq α] (h : Holds hash key t) (ha : key a = some k) :
    Holds hash (Function.update key a none) (delete hash key t k) := by
  refine ⟨fun i b => ?_, fun i => ?_, fun b b' k' hb hb' => ?_⟩
  · have hmem : b ∈ HashTable.delete hash key t k i ↔ b ≠ a ∧ b ∈ t i := by
      unfold HashTable.delete
      by_cases hi : i = hash k
      · subst hi
        rw [Function.update_self]
        exact h.mem_eraseP ha b
      · rw [Function.update_of_ne hi]
        refine ⟨fun hb => ⟨?_, hb⟩, And.right⟩
        rintro rfl
        obtain ⟨k', hk', rfl⟩ := (h.mem_iff i b).1 hb
        rw [ha] at hk'
        cases hk'
        exact hi rfl
    rw [hmem, h.mem_iff]
    by_cases hba : b = a
    · subst hba
      simp
    · rw [Function.update_of_ne hba]
      simp [hba]
  · unfold HashTable.delete
    by_cases hi : i = hash k
    · subst hi
      rw [Function.update_self]
      exact (h.nodup _).sublist List.eraseP_sublist
    · rw [Function.update_of_ne hi]
      exact h.nodup i
  · have hne : ∀ {c : α}, Function.update key a none c = some k' → key c = some k' := by
      intro c hc
      by_cases hca : c = a
      · subst hca
        rw [Function.update_self] at hc
        cases hc
      · rwa [Function.update_of_ne hca] at hc
    exact h.unique b b' k' (hne hb) (hne hb')

/-- The keys met on a walk of the first `n` chains are distinct. -/
theorem Holds.keys_nodup (h : Holds hash key t) (n : Nat) : (((List.range n).flatMap t).filterMap key).Nodup := by
  refine List.Nodup.filterMap (fun a b k ha hb => h.unique a b k ha hb) (List.nodup_flatMap.2 ⟨fun i _ => h.nodup i, ?_⟩)
  refine List.nodup_range.imp_of_mem fun {i j} _ _ hij => List.disjoint_left.2 fun a hi hj => hij ?_
  obtain ⟨k, hk, rfl⟩ := (h.mem_iff i a).1 hi
  obtain ⟨k', hk', rfl⟩ := (h.mem_iff j a).1 hj
  rw [hk] at hk'
  cases hk'
  rfl

end HashTable
