/-
# Transducers

A scanner goes through a text once, from left to right.  At every character it is in some MODE, and the character
makes it write a few results and go into another mode, or refuse the text.  What a scanner makes of a text is
therefore what it makes of a first part, followed by what it makes of the rest in the mode it is in then
(`run_append`).

How much is written can be bounded step by step: if a mode OWES no more than what was read before it, the whole run
writes no more than what is owed at its beginning and what it reads (`run_le`).
-/
import Mathlib.Data.List.Basic

namespace Picoshift

universe u v w

/-- A machine with modes `M` that reads `I` and writes `O`. -/
structure Transducer (M : Type u) (I : Type v) (O : Type w) where
  next : M → I → Option (List O × M)

namespace Transducer

variable {M : Type u} {I : Type v} {O : Type w}

/-- The results so far, in front of those of a run. -/
def prepend (out : List O) (r : Option (List O × M)) : Option (List O × M) :=
  r.map fun p => (out ++ p.1, p.2)

@[simp] theorem prepend_none (out : List O) : prepend out (none : Option (List O × M)) = none := rfl

@[simp] theorem prepend_some (out out' : List O) (m : M) :
    prepend out (some (out', m)) = some (out ++ out', m) := rfl

@[simp] theorem prepend_prepend (out out' : List O) (r : Option (List O × M)) :
    prepend out (prepend out' r) = prepend (out ++ out') r := by
  cases r with
  | none => rfl
  | some p => rw [prepend_some, prepend_some, prepend_some, List.append_assoc]

@[simp] theorem prepend_nil (r : Option (List O × M)) : prepend [] r = r := by
  cases r <;> rfl

theorem prepend_eq_some {out out₁ : List O} {r : Option (List O × M)} {m : M} :
    prepend out r = some (out₁, m) ↔ ∃ out₂, r = some (out₂, m) ∧ out₁ = out ++ out₂ := by
  cases r with
  | none => simp
  | some p =>
    obtain ⟨out₀, m₀⟩ := p
    rw [prepend_some]
    constructor
    · intro h
      cases h
      exact ⟨out₀, rfl, rfl⟩
    · rintro ⟨out₂, h, rfl⟩
      cases h
      rfl

variable (T : Transducer M I O)

/-- The results of a text, and the mode after it. -/
def run : M → List I → Option (List O × M)
  | m, [] => some ([], m)
  | m, c :: s =>
    match T.next m c with
    | none => none
    | some (out, m') => prepend out (run m' s)

variable {T} {m m' : M} {c : I} {s : List I} {out : List O}

theorem run_cons_of_next (h : T.next m c = some (out, m')) (s : List I) :
    T.run m (c :: s) = prepend out (T.run m' s) := by
  rw [run, h]

theorem run_cons_eq_some (h : T.run m (c :: s) = some (out, m')) :
    ∃ out₁ m₁ out₂, T.next m c = some (out₁, m₁) ∧ T.run m₁ s = some (out₂, m') ∧
      out = out₁ ++ out₂ := by
  rw [run] at h
  cases hnext : T.next m c with
  | none =>
    rw [hnext] at h
    cases h
  | some p =>
    rw [hnext] at h
    obtain ⟨out₂, hrun, hout⟩ := prepend_eq_some.mp h
    exact ⟨p.1, p.2, out₂, rfl, hrun, hout⟩

/-- **A text in two parts.** -/
theorem run_append_of (a b : List I) (h : T.run m a = some (out, m')) :
    T.run m (a ++ b) = prepend out (T.run m' b) := by
  induction a generalizing m out with
  | nil =>
    obtain ⟨rfl, rfl⟩ := Prod.mk.inj (Option.some.inj h)
    exact (prepend_nil _).symm
  | cons c a ih =>
    obtain ⟨out₁, m₁, out₂, hnext, hrun, rfl⟩ := run_cons_eq_some h
    rw [List.cons_append, run_cons_of_next hnext, ih hrun, prepend_prepend]

theorem run_append_eq_some {a b : List I} (h : T.run m (a ++ b) = some (out, m')) :
    ∃ out₁ m₁ out₂, T.run m a = some (out₁, m₁) ∧ T.run m₁ b = some (out₂, m') ∧
      out = out₁ ++ out₂ := by
  induction a generalizing m out with
  | nil => exact ⟨[], m, out, rfl, h, rfl⟩
  | cons c a ih =>
    obtain ⟨out₁, m₁, rest, hnext, hrun, rfl⟩ := run_cons_eq_some h
    obtain ⟨out₂, m₂, out₃, ha, hb, rfl⟩ := ih hrun
    refine ⟨out₁ ++ out₂, m₂, out₃, ?_, hb, (List.append_assoc ..).symm⟩
    rw [run_cons_of_next hnext, ha, prepend_some]

/-! ## Bounds -/

/-- What a list weighs. -/
def total {α : Type*} (weight : α → Nat) : List α → Nat
  | [] => 0
  | x :: xs => weight x + total weight xs

@[simp] theorem total_nil {α : Type*} (weight : α → Nat) : total weight [] = 0 := rfl

@[simp] theorem total_cons {α : Type*} (weight : α → Nat) (x : α) (xs : List α) :
    total weight (x :: xs) = weight x + total weight xs := rfl

@[simp] theorem total_append {α : Type*} (weight : α → Nat) (xs ys : List α) :
    total weight (xs ++ ys) = total weight xs + total weight ys := by
  induction xs with
  | nil => simp
  | cons x xs ih => rw [List.cons_append, total_cons, total_cons, ih, Nat.add_assoc]

/-- **What is written was read or owed**, if that is so in every step. -/
theorem run_le {read : I → Nat} {written : O → Nat} {owed : M → Nat}
    (hstep : ∀ m c out m', T.next m c = some (out, m') → total written out + owed m' ≤ owed m + read c)
    (h : T.run m s = some (out, m')) : total written out + owed m' ≤ owed m + total read s := by
  induction s generalizing m out with
  | nil =>
    obtain ⟨rfl, rfl⟩ := Prod.mk.inj (Option.some.inj h)
    exact Nat.le_of_eq (Nat.add_comm ..)
  | cons c s ih =>
    obtain ⟨out₁, m₁, out₂, hnext, hrun, rfl⟩ := run_cons_eq_some h
    have hfirst := hstep _ _ _ _ hnext
    have hrest := ih hrun
    rw [total_append, total_cons]
    omega

end Transducer

end Picoshift
