/-
Machines with an executable step: the runs all of whose steps meet a condition, the invariant rule for
them, and runs given as a list of actions.
-/
import Mathlib.Logic.Basic

namespace Transition

/-- Initial states, and the step an action takes from a state, if it can. -/
structure Machine (σ α : Type) where
  init : σ → Prop
  next : σ → α → Option σ

namespace Machine

variable {σ α : Type} (M : Machine σ α)

/-- The states reached by runs all of whose steps meet `ok`. -/
inductive Reach (ok : σ → α → Prop) : σ → Prop
  | init {s : σ} : M.init s → Reach ok s
  | step {s t : σ} {a : α} : Reach ok s → ok s a → M.next s a = some t → Reach ok t

/-- The states reached by any run. -/
abbrev Reachable : σ → Prop := M.Reach fun _ _ => True

variable {M}

/-- The invariant rule: what holds initially and is kept by every step that meets the condition holds
in every state such runs reach. -/
theorem Reach.inv {ok : σ → α → Prop} {I : σ → Prop} (h0 : ∀ s, M.init s → I s)
    (hs : ∀ s t a, I s → ok s a → M.next s a = some t → I t) {s : σ} (h : M.Reach ok s) : I s := by
  induction h with
  | init hi => exact h0 _ hi
  | step _ hok hn ih => exact hs _ _ _ ih hok hn

/-- Runs under a stronger condition are runs under a weaker one. -/
theorem Reach.mono {ok ok' : σ → α → Prop} (himp : ∀ s a, ok s a → ok' s a) {s : σ} (h : M.Reach ok s) :
    M.Reach ok' s := by
  induction h with
  | init hi => exact .init hi
  | step _ hok hn ih => exact .step ih (himp _ _ hok) hn

variable (M)

/-- The runs from one state to another, with the steps taken: the state before each and its action. -/
inductive Trace : σ → List (σ × α) → σ → Prop
  | nil {s : σ} : Trace s [] s
  | cons {s t u : σ} {a : α} {steps : List (σ × α)} : M.next s a = some u → Trace u steps t → Trace s ((s, a) :: steps) t

variable {M}

/-- An invariant of the steps of a run that meet a condition holds wherever the run comes by. -/
theorem Trace.inv {s t : σ} {steps : List (σ × α)} (h : M.Trace s steps t) (ok : σ → α → Prop) (I : σ → Prop)
    (hs : ∀ s t a, I s → ok s a → M.next s a = some t → I t) (hok : ∀ p ∈ steps, ok p.1 p.2) (h0 : I s) :
    (∀ p ∈ steps, I p.1) ∧ I t := by
  induction h with
  | nil => exact ⟨List.forall_mem_nil _, h0⟩
  | cons hn _ ih =>
    obtain ⟨hfirst, hrest⟩ := List.forall_mem_cons.1 hok
    obtain ⟨hsteps, hend⟩ := ih hrest (hs _ _ _ h0 hfirst hn)
    exact ⟨List.forall_mem_cons.2 ⟨h0, hsteps⟩, hend⟩

/-- A step of a run leads to a state the run comes by. -/
theorem Trace.next {s t : σ} {steps : List (σ × α)} (h : M.Trace s steps t) {I : σ → Prop}
    (hI : (∀ p ∈ steps, I p.1) ∧ I t) : ∀ p ∈ steps, ∃ u, M.next p.1 p.2 = some u ∧ I u := by
  induction h with
  | nil => exact List.forall_mem_nil _
  | cons hn hrest ih =>
    obtain ⟨hsteps, hend⟩ := hI
    obtain ⟨-, hsteps⟩ := List.forall_mem_cons.1 hsteps
    refine List.forall_mem_cons.2 ⟨⟨_, hn, ?_⟩, ih ⟨hsteps, hend⟩⟩
    cases hrest with
    | nil => exact hend
    | cons _ _ => exact (List.forall_mem_cons.1 hsteps).1

variable (M)

section

variable (ok : σ → α → Prop) [∀ s a, Decidable (ok s a)]

/-- The state after a list of actions, each chosen in the state it is taken in, if each can be taken and
meets the condition. -/
def play (s : σ) : List (σ → α) → Option σ
  | [] => some s
  | a :: as => if ok s (a s) then (M.next s (a s)).bind fun t => play t as else none

/-- The state after a list of actions. -/
def run (s : σ) (as : List α) : Option σ := M.play ok s (as.map fun a _ => a)

variable {M ok}

theorem reach_play : ∀ (as : List (σ → α)) {s t : σ}, M.Reach ok s → M.play ok s as = some t → M.Reach ok t
  | [], s, t, h, hr => by cases hr; exact h
  | a :: as, s, t, h, hr => by
    rw [play] at hr
    split at hr
    · rename_i hok
      rw [Option.bind_eq_some_iff] at hr
      obtain ⟨u, hu, hr⟩ := hr
      exact reach_play as (h.step hok hu) hr
    · cases hr

/-- The steps of a list of actions make a run. -/
theorem trace_play : ∀ (as : List (σ → α)) {s t : σ}, M.play ok s as = some t →
    ∃ steps, M.Trace s steps t ∧ ∀ p ∈ steps, ok p.1 p.2
  | [], s, t, hr => by
    cases hr
    exact ⟨[], .nil, List.forall_mem_nil _⟩
  | a :: as, s, t, hr => by
    rw [play] at hr
    split at hr
    · rename_i hok
      rw [Option.bind_eq_some_iff] at hr
      obtain ⟨u, hu, hr⟩ := hr
      obtain ⟨steps, hsteps, hall⟩ := trace_play as hr
      exact ⟨(s, a s) :: steps, .cons hu hsteps, List.forall_mem_cons.2 ⟨hok, hall⟩⟩
    · cases hr

/-- Checking a run by evaluation: a test that holds after the actions holds in a state such runs reach. -/
theorem reach_of_played {s : σ} (h0 : M.init s) (as : List (σ → α)) (p : σ → Bool) (h : (M.play ok s as).any p = true) :
    ∃ t, M.Reach ok t ∧ p t = true := by
  cases hr : M.play ok s as with
  | none => rw [hr] at h; cases h
  | some t =>
    rw [hr] at h
    exact ⟨t, reach_play as (.init h0) hr, h⟩

theorem reach_of_check {s : σ} (h0 : M.init s) (as : List α) (p : σ → Bool) (h : (M.run ok s as).any p = true) :
    ∃ t, M.Reach ok t ∧ p t = true :=
  reach_of_played h0 (as.map fun a _ => a) p h

end

end Machine

end Transition
