/-
Locks taken in order of rank: sections that ask for locks of higher and higher rank and give them up the last one first,
and why threads in such sections never all wait for one another.
-/
import Mathlib.Data.Finset.Max
import Mathlib.Data.List.Basic

namespace LockOrder

/-! ## Sections -/

/-- An operation of a section: on a lock `l`, in a mode `k`. -/
inductive Op (κ ι : Type)
  | acquire (k : κ) (l : ι)
  | release (k : κ) (l : ι)
  deriving DecidableEq

section

variable {κ ι : Type} [DecidableEq κ] [DecidableEq ι] (rank : ι → Nat)

/-- Operations that go on in order from the locks held, the last one first, and end without any. -/
def inOrder : List (κ × ι) → List (Op κ ι) → Bool
  | held, [] => held.isEmpty
  | held, .acquire k l :: ops => held.all (fun h => decide (rank h.2 < rank l)) && inOrder ((k, l) :: held) ops
  | [], .release _ _ :: _ => false
  | h :: held, .release k l :: ops => decide (h = (k, l)) && inOrder held ops

/-- The locks held behind an operation. -/
def heldAfter (held : List (κ × ι)) : Op κ ι → List (κ × ι)
  | .acquire k l => (k, l) :: held
  | .release _ _ => held.tail

variable {rank} {held : List (κ × ι)} {k : κ} {l : ι} {op : Op κ ι} {ops : List (Op κ ι)}

theorem inOrder_acquire (h : inOrder rank held (.acquire k l :: ops) = true) : ∀ e ∈ held, rank e.2 < rank l := by
  unfold inOrder at h
  rw [Bool.and_eq_true, List.all_eq_true] at h
  exact fun e he => of_decide_eq_true (h.1 e he)

theorem inOrder_release (h : inOrder rank held (.release k l :: ops) = true) : ∃ rest, held = (k, l) :: rest := by
  cases held with
  | nil => cases h
  | cons e rest =>
    unfold inOrder at h
    rw [Bool.and_eq_true, decide_eq_true_eq] at h
    exact ⟨rest, by rw [h.1]⟩

/-- What is left of a section goes on in order. -/
theorem inOrder_rest (h : inOrder rank held (op :: ops) = true) : inOrder rank (heldAfter held op) ops = true := by
  cases op with
  | acquire k l =>
    unfold inOrder at h
    rw [Bool.and_eq_true] at h
    exact h.2
  | release k l =>
    obtain ⟨rest, rfl⟩ := inOrder_release h
    unfold inOrder at h
    rw [Bool.and_eq_true] at h
    exact h.2

/-- With a lock in hand a section is not over. -/
theorem inOrder_ne_nil (h : inOrder rank held ops = true) (hheld : held ≠ []) : ops ≠ [] := by
  rintro rfl
  exact hheld (List.isEmpty_iff.1 h)

/-- Takes locks one after another, and gives them up the last one first. -/
def nested : List (κ × ι) → List (Op κ ι)
  | [] => []
  | e :: es => .acquire e.1 e.2 :: (nested es ++ [.release e.1 e.2])

theorem inOrder_nested {es held : List (κ × ι)} (hsorted : es.Pairwise fun e e' => rank e.2 < rank e'.2)
    (habove : ∀ e ∈ es, ∀ h ∈ held, rank h.2 < rank e.2) (hops : inOrder rank held ops = true) :
    inOrder rank held (nested es ++ ops) = true := by
  induction es generalizing held ops with
  | nil => exact hops
  | cons e es ih =>
    obtain ⟨hfirst, hrest⟩ := List.pairwise_cons.1 hsorted
    have hrelease : inOrder rank (e :: held) (.release e.1 e.2 :: ops) = true := by
      unfold inOrder
      rw [Bool.and_eq_true]
      exact ⟨decide_eq_true rfl, hops⟩
    have hinner : inOrder rank (e :: held) (nested es ++ .release e.1 e.2 :: ops) = true := by
      refine ih hrest (fun e' he' => List.forall_mem_cons.2 ⟨hfirst e' he', ?_⟩) hrelease
      exact habove e' (List.mem_cons_of_mem _ he')
    rw [nested, List.cons_append, List.append_assoc, inOrder, Bool.and_eq_true, List.all_eq_true]
    exact ⟨fun h hh => decide_eq_true (habove e List.mem_cons_self h hh), hinner⟩

end

/-! ## Places -/

/-- A section in order. -/
structure Sequence (κ ι : Type) [DecidableEq κ] [DecidableEq ι] (rank : ι → Nat) where
  ops : List (Op κ ι)
  ordered : inOrder rank [] ops = true

theorem Sequence.ext {κ ι : Type} [DecidableEq κ] [DecidableEq ι] {rank : ι → Nat} {s t : Sequence κ ι rank}
    (h : s.ops = t.ops) : s = t := by
  cases s
  cases t
  cases h
  rfl

instance {κ ι : Type} [DecidableEq κ] [DecidableEq ι] {rank : ι → Nat} : DecidableEq (Sequence κ ι rank) :=
  fun s t => decidable_of_iff (s.ops = t.ops) ⟨Sequence.ext, congrArg _⟩

def Sequence.nested {κ ι : Type} [DecidableEq κ] [DecidableEq ι] {rank : ι → Nat} (es : List (κ × ι))
    (h : es.Pairwise fun e e' => rank e.2 < rank e'.2) : Sequence κ ι rank where
  ops := LockOrder.nested es
  ordered := by
    have hordered := @inOrder_nested κ ι _ _ rank [] es [] h (fun _ _ => List.forall_mem_nil _) rfl
    rwa [List.append_nil] at hordered

/-- Where a thread is in a section: the locks it has asked for and not given up, each above those before it, and what it
goes on with. -/
structure Place (κ ι : Type) [DecidableEq κ] [DecidableEq ι] (rank : ι → Nat) where
  held : List (κ × ι)
  ops : List (Op κ ι)
  sorted : held.Pairwise fun e e' => rank e'.2 < rank e.2
  ordered : inOrder rank held ops = true

def Op.lock {κ ι : Type} : Op κ ι → ι
  | .acquire _ l | .release _ l => l

section

variable {κ ι : Type} [DecidableEq κ] [DecidableEq ι] {rank : ι → Nat} {p p' : Place κ ι rank} {k : κ} {l : ι} {op : Op κ ι}

/-- In no section. -/
def Place.out : Place κ ι rank := ⟨[], [], .nil, rfl⟩

def Sequence.start (s : Sequence κ ι rank) : Place κ ι rank := ⟨[], s.ops, .nil, s.ordered⟩

theorem sorted_heldAfter {held : List (κ × ι)} {ops : List (Op κ ι)} (hsorted : held.Pairwise fun e e' => rank e'.2 < rank e.2)
    (h : inOrder rank held (op :: ops) = true) : (heldAfter held op).Pairwise fun e e' => rank e'.2 < rank e.2 := by
  cases op with
  | acquire k l => exact List.pairwise_cons.2 ⟨inOrder_acquire h, hsorted⟩
  | release k l => exact hsorted.tail

/-- The place behind an operation, if it is the next one. -/
def Place.follow (p : Place κ ι rank) (op : Op κ ι) : Option (Place κ ι rank) :=
  match p with
  | ⟨_, [], _, _⟩ => none
  | ⟨held, next :: ops, sorted, ordered⟩ =>
    if next = op then some ⟨heldAfter held next, ops, sorted_heldAfter sorted ordered, inOrder_rest ordered⟩ else none

theorem Place.follow_spec (h : p.follow op = some p') : p.ops = op :: p'.ops ∧ p'.held = heldAfter p.held op := by
  obtain ⟨held, ops, sorted, ordered⟩ := p
  cases ops with
  | nil => cases h
  | cons next ops =>
    simp only [Place.follow, Option.ite_none_right_eq_some, Option.some.injEq] at h
    obtain ⟨rfl, rfl⟩ := h
    exact ⟨rfl, rfl⟩

theorem Place.follow_head {ops : List (Op κ ι)} (h : p.ops = op :: ops) : ∃ p', p.follow op = some p' := by
  obtain ⟨held, _, sorted, ordered⟩ := p
  cases h
  exact ⟨_, if_pos rfl⟩

theorem Place.held_eq_nil (h : p.ops = []) : p.held = [] := by
  by_contra hheld
  exact inOrder_ne_nil p.ordered hheld h

/-- The lock asked for comes above those held. -/
theorem Place.acquire (h : p.follow (.acquire k l) = some p') :
    p'.held = (k, l) :: p.held ∧ ∀ e ∈ p.held, rank e.2 < rank l := by
  obtain ⟨hops, hheld⟩ := follow_spec h
  have hordered := p.ordered
  rw [hops] at hordered
  exact ⟨hheld, inOrder_acquire hordered⟩

/-- The lock given up is the last one asked for, and what stays is below it. -/
theorem Place.release (h : p.follow (.release k l) = some p') :
    p.held = (k, l) :: p'.held ∧ ∀ e ∈ p'.held, rank e.2 < rank l := by
  obtain ⟨hops, hheld⟩ := follow_spec h
  have hordered := p.ordered
  rw [hops] at hordered
  obtain ⟨rest, hrest⟩ := inOrder_release hordered
  have htail : p'.held = rest := by rw [hheld, hrest]; rfl
  have hsorted := p.sorted
  rw [hrest, List.pairwise_cons] at hsorted
  rw [htail]
  exact ⟨hrest, hsorted.1⟩

end

/-! ## Waiting -/

/-- Among finitely many, where each that waits waits for one that is free or for one that waits higher up, one is free. -/
theorem exists_free {τ : Type} (ts : Finset τ) (waits free : τ → Prop) (rank : τ → Nat)
    (hnext : ∀ t ∈ ts, waits t → ∃ t', free t' ∨ t' ∈ ts ∧ waits t' ∧ rank t < rank t') {t : τ} (ht : t ∈ ts) (hw : waits t) :
    ∃ t', free t' := by
  classical
  obtain ⟨top, htop, hmax⟩ := (ts.filter waits).exists_max_image rank ⟨t, Finset.mem_filter.2 ⟨ht, hw⟩⟩
  obtain ⟨hmem, hwaits⟩ := Finset.mem_filter.1 htop
  obtain ⟨t', hfree | ⟨hmem', hwaits', hlt⟩⟩ := hnext top hmem hwaits
  · exact ⟨t', hfree⟩
  · exact absurd (hmax t' (Finset.mem_filter.2 ⟨hmem', hwaits'⟩)) (not_le_of_gt hlt)

end LockOrder
