/-
# Watches

A watch of a collection delivers the states of every object in the order in which the object went
through them, late and independently of other objects.  A FEED is what has not been delivered yet:
for every key the states that are still to come, `none` for a deletion.  Delivering takes the first
one away, a change adds one at the end, and a new list of the collection replaces everything by the
objects that exist.
-/
import Picoshift.Lib.Map

namespace Picoshift

universe u v

variable {K : Type u} {V : Type v}

/-- The states that are still to be delivered, by key and in order. -/
def Feed (K : Type u) (V : Type v) := K → List (Option V)

namespace Feed

/-- What is still to be delivered of one object. -/
def pending (f : Feed K V) (k : K) : List (Option V) := f k

/-- Everything has been delivered. -/
def empty : Feed K V := fun _ => []

/-- The collection is listed anew. -/
def relist (objects : Map K V) : Feed K V := fun k => ((objects.get k).map some).toList

section Ops

variable [DecidableEq K]

/-- The object has changed, or is gone. -/
def push (f : Feed K V) (k : K) (state : Option V) : Feed K V :=
  fun k' => if k' = k then f.pending k ++ [state] else f.pending k'

/-- The first state has been delivered. -/
def pop (f : Feed K V) (k : K) : Feed K V :=
  fun k' => if k' = k then (f.pending k).tail else f.pending k'

end Ops

@[simp] theorem pending_empty (k : K) : (empty : Feed K V).pending k = [] := rfl

theorem mem_pending_relist {objects : Map K V} {k : K} {state : Option V} :
    state ∈ (relist objects).pending k ↔ ∃ v, state = some v ∧ objects.get k = some v := by
  rw [pending, relist]
  cases objects.get k with
  | none => simp
  | some v => simp

section Ops

variable [DecidableEq K]

@[simp] theorem pending_push_self (f : Feed K V) (k : K) (state : Option V) :
    (f.push k state).pending k = f.pending k ++ [state] := if_pos rfl

@[simp] theorem pending_push_ne (f : Feed K V) {k k' : K} (state : Option V) (h : k' ≠ k) :
    (f.push k state).pending k' = f.pending k' := if_neg h

@[simp] theorem pending_pop_self (f : Feed K V) (k : K) :
    (f.pop k).pending k = (f.pending k).tail := if_pos rfl

@[simp] theorem pending_pop_ne (f : Feed K V) {k k' : K} (h : k' ≠ k) :
    (f.pop k).pending k' = f.pending k' := if_neg h

theorem pop_of_pending_nil {f : Feed K V} {k : K} (h : f.pending k = []) : f.pop k = f := by
  funext k'
  by_cases hk : k' = k
  · subst hk
    exact (pending_pop_self f k').trans ((congrArg List.tail h).trans h.symm)
  · exact pending_pop_ne f hk

theorem mem_pending_push {f : Feed K V} {k k' : K} {state state' : Option V} :
    state' ∈ (f.push k state).pending k' ↔
      state' ∈ f.pending k' ∨ (k' = k ∧ state' = state) := by
  by_cases hk : k' = k
  · subst hk
    simp
  · simp [hk]

theorem mem_pending_of_mem_pop {f : Feed K V} {k k' : K} {state : Option V}
    (h : state ∈ (f.pop k).pending k') : state ∈ f.pending k' := by
  by_cases hk : k' = k
  · subst hk
    rw [pending_pop_self] at h
    exact List.mem_of_mem_tail h
  · rwa [pending_pop_ne f hk] at h

end Ops

end Feed

end Picoshift
