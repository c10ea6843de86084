/-
# Machines, their runs and their histories

A component that takes one step per input is a MACHINE: a step function from a state and an
input to the next state and an output.  A run is a list of inputs.  What happened in a run is
its TRACE, one entry per step with the state before, the input, the output and the state
after.

Claims about "every reachable state" and "earlier in the same run" are claims about traces.
They are all proved by one rule, `Machine.run_induction`: an invariant that relates the trace
so far to the current state, and is kept by every step, holds after every run.  Assumptions on
a run (a clock that never goes back, random values that never repeat) are predicates on traces
closed under dropping the last step, and the rule hands them to the step case.
-/
import Mathlib.Data.List.Induction

namespace Picoshift

universe u v w

/-- One step: the state it starts from, its input, its output, the state it leads to. -/
structure Entry (σ : Type u) (ι : Type v) (ο : Type w) where
  before : σ
  input : ι
  output : ο
  after : σ

/-- A deterministic machine.  What the outside world decides is part of the input. -/
structure Machine (σ : Type u) (ι : Type v) (ο : Type w) where
  step : σ → ι → σ × ο

namespace Machine

variable {σ : Type u} {ι : Type v} {ο : Type w} (M : Machine σ ι ο)

/-- The entry that the input `i` adds to a trace from `s`. -/
def entry (s : σ) (i : ι) : Entry σ ι ο := ⟨s, i, (M.step s i).2, (M.step s i).1⟩

/-- The state after a run. -/
def exec (s : σ) : List ι → σ
  | [] => s
  | i :: is => exec (M.step s i).1 is

/-- The trace of a run. -/
def trace (s : σ) : List ι → List (Entry σ ι ο)
  | [] => []
  | i :: is => M.entry s i :: trace (M.step s i).1 is

@[simp] theorem exec_nil (s : σ) : M.exec s [] = s := rfl

@[simp] theorem trace_nil (s : σ) : M.trace s [] = [] := rfl

theorem exec_append (s : σ) (is js : List ι) : M.exec s (is ++ js) = M.exec (M.exec s is) js := by
  induction is generalizing s with
  | nil => rfl
  | cons i is ih => exact ih _

theorem trace_append (s : σ) (is js : List ι) :
    M.trace s (is ++ js) = M.trace s is ++ M.trace (M.exec s is) js := by
  induction is generalizing s with
  | nil => rfl
  | cons i is ih =>
    simp only [List.cons_append, trace, exec, ih]

@[simp] theorem exec_append_singleton (s : σ) (is : List ι) (i : ι) :
    M.exec s (is ++ [i]) = (M.step (M.exec s is) i).1 := exec_append M s is [i]

@[simp] theorem trace_append_singleton (s : σ) (is : List ι) (i : ι) :
    M.trace s (is ++ [i]) = M.trace s is ++ [M.entry (M.exec s is) i] := trace_append M s is [i]

/-- The inputs of a trace are the inputs of the run. -/
@[simp] theorem map_input_trace (s : σ) (is : List ι) : (M.trace s is).map Entry.input = is := by
  induction is generalizing s with
  | nil => rfl
  | cons i is ih =>
    simp only [trace, List.map_cons, ih]
    rfl

/-- The entry of an input inside a run. -/
theorem entry_mem_trace (s : σ) (is : List ι) (i : ι) (js : List ι) :
    M.entry (M.exec s is) i ∈ M.trace s (is ++ i :: js) := by
  rw [trace_append]
  exact List.mem_append_right _ List.mem_cons_self

/-- An entry of a trace is a step. -/
theorem after_of_mem_trace {s : σ} {is : List ι} {e : Entry σ ι ο} (h : e ∈ M.trace s is) :
    e.after = (M.step e.before e.input).1 := by
  induction is generalizing s with
  | nil => cases h
  | cons i is ih =>
    rcases List.mem_cons.mp h with rfl | h
    · rfl
    · exact ih h

/-- An entry inside a trace: the run up to it, its input, and the run from there. -/
theorem trace_eq_append_cons {s : σ} {is : List ι} {h₁ h₂ : List (Entry σ ι ο)} {e : Entry σ ι ο}
    (h : M.trace s is = h₁ ++ e :: h₂) :
    ∃ is₁ i is₂, is = is₁ ++ i :: is₂ ∧ h₁ = M.trace s is₁ ∧ e = M.entry (M.exec s is₁) i := by
  induction h₁ generalizing s is with
  | nil =>
    cases is with
    | nil => exact absurd h (by simp)
    | cons i is =>
      obtain ⟨he, -⟩ := List.cons.inj h
      exact ⟨[], i, is, rfl, rfl, he.symm⟩
  | cons e₁ h₁ ih =>
    cases is with
    | nil => exact absurd h (by simp)
    | cons i is =>
      obtain ⟨he, ht⟩ := List.cons.inj h
      obtain ⟨is₁, j, is₂, rfl, rfl, rfl⟩ := ih ht
      exact ⟨i :: is₁, j, is₂, rfl, by rw [trace, he], rfl⟩

/-- The induction rule for runs.  `Ok` is what a run assumes of its trace; it only has to
survive dropping the last step. -/
theorem run_induction {P : List (Entry σ ι ο) → σ → Prop} {Ok : List (Entry σ ι ο) → Prop}
    (hOk : ∀ h e, Ok (h ++ [e]) → Ok h) {s₀ : σ} (h0 : P [] s₀)
    (hstep : ∀ h s i, P h s → Ok (h ++ [M.entry s i]) → P (h ++ [M.entry s i]) (M.step s i).1)
    (is : List ι) (his : Ok (M.trace s₀ is)) : P (M.trace s₀ is) (M.exec s₀ is) := by
  induction is using List.reverseRecOn with
  | nil => exact h0
  | append_singleton is i ih =>
    rw [trace_append_singleton] at his ⊢
    rw [exec_append_singleton]
    exact hstep _ _ _ (ih (hOk _ _ his)) his

/-- The same rule for a run that assumes nothing. -/
theorem history_induction {P : List (Entry σ ι ο) → σ → Prop} {s₀ : σ} (h0 : P [] s₀)
    (hstep : ∀ h s i, P h s → P (h ++ [M.entry s i]) (M.step s i).1) (is : List ι) :
    P (M.trace s₀ is) (M.exec s₀ is) := by
  have hall : (fun _ : List (Entry σ ι ο) => True) (M.trace s₀ is) := trivial
  exact M.run_induction (fun _ _ _ => trivial) h0 (fun h s i hp _ => hstep h s i hp) is hall

/-- The plain invariant rule: what holds initially and is kept by every step holds after every
run. -/
theorem invariant {P : σ → Prop} {s₀ : σ} (h0 : P s₀) (hstep : ∀ s i, P s → P (M.step s i).1)
    (is : List ι) : P (M.exec s₀ is) := by
  induction is generalizing s₀ with
  | nil => exact h0
  | cons i is ih => exact ih (hstep _ _ h0)

/-- The EXACT rule: when `Ok` is what a step needs to keep `P`, no more and no less, then `P` holds
in every state of a run exactly when every step of the run is `Ok`. -/
theorem forall_take_iff {P : σ → Prop} {Ok : σ → ι → Prop}
    (hstep : ∀ s i, P s → (P (M.step s i).1 ↔ Ok s i)) {s₀ : σ} (h0 : P s₀) (is : List ι) :
    (∀ n, P (M.exec s₀ (is.take n))) ↔ ∀ e ∈ M.trace s₀ is, Ok e.before e.input := by
  induction is generalizing s₀ with
  | nil =>
    constructor
    · intro _ e he
      cases he
    · intro _ n
      rw [List.take_nil]
      exact h0
  | cons i is ih =>
    constructor
    · intro hall e he
      have h1 : P (M.step s₀ i).1 := hall 1
      rcases List.mem_cons.mp he with rfl | he
      · exact (hstep s₀ i h0).mp h1
      · exact (ih h1).mp (fun n => hall (n + 1)) e he
    · intro hok n
      cases n with
      | zero => exact h0
      | succ n =>
        have h1 : P (M.step s₀ i).1 := (hstep s₀ i h0).mpr (hok _ List.mem_cons_self)
        exact (ih h1).mpr (fun e he => hok e (List.mem_cons_of_mem _ he)) n

end Machine

end Picoshift
