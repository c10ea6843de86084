/-
# Concurrent writers and last-write-wins

Two tasks write into one map.  Each works through a collection of WRITERS, a writer being the list
of writes one object causes, in an order nobody fixes, and the two tasks take turns as the
scheduler likes.  A `Schedule` is any list of writes that can come out of this.

What a schedule leaves at a key is the last value some writer has for it, and every writer can be
the one (`Schedule.get_eq_some`, `exists_schedule`).  Hence the final map is the same for ALL
schedules exactly when no two writers leave different values at one key
(`schedules_agree_iff`).  There is no third possibility: last-write-wins resolves no conflict.
-/
import Mathlib.Data.List.Perm.Basic
import Picoshift.Lib.Map

namespace Picoshift

namespace Writers

variable {α K V : Type}

/-! ## 1. Interleavings -/

/-- `ws` interleaves `l` and `r`, keeping the order of each. -/
inductive Interleave : List α → List α → List α → Prop
  | nil : Interleave [] [] []
  | left {a : α} {l r ws : List α} : Interleave l r ws → Interleave (a :: l) r (a :: ws)
  | right {a : α} {l r ws : List α} : Interleave l r ws → Interleave l (a :: r) (a :: ws)

theorem interleave_left (l : List α) : Interleave l [] l := by
  induction l with
  | nil => exact .nil
  | cons a l ih => exact .left ih

theorem interleave_right (r : List α) : Interleave [] r r := by
  induction r with
  | nil => exact .nil
  | cons a r ih => exact .right ih

/-- One task may run to its end before the other starts. -/
theorem interleave_append (l r : List α) : Interleave l r (l ++ r) := by
  induction l with
  | nil => exact interleave_right r
  | cons a l ih => exact .left ih

theorem interleave_append_swap (l r : List α) : Interleave l r (r ++ l) := by
  induction r with
  | nil => exact interleave_left l
  | cons a r ih => exact .right ih

variable [DecidableEq K]

/-- At every key one of the two tasks has the last word, and the other is heard only where the
first is silent. -/
theorem Interleave.get_ofPairs {l r ws : List (K × V)} (h : Interleave l r ws) (k : K) :
    (Map.ofPairs ws).get k = ((Map.ofPairs l).get k).or ((Map.ofPairs r).get k) ∨
      (Map.ofPairs ws).get k = ((Map.ofPairs r).get k).or ((Map.ofPairs l).get k) := by
  -- the first write of a list counts only when the rest of the list is silent
  have hcons : ∀ (w : K × V) (us : List (K × V)), (Map.ofPairs (w :: us)).get k =
      ((Map.ofPairs us).get k).or ((Map.ofPairs [w]).get k) :=
    fun w us => Map.get_ofPairs_append [w] us k
  induction h with
  | nil => exact Or.inl rfl
  | @left w l r ws _ ih =>
    rw [hcons w ws, hcons w l]
    rcases ih with ih | ih
    · rw [ih]
      cases (Map.ofPairs l).get k with
      | none => exact Or.inr rfl
      | some v => exact Or.inl rfl
    · rw [ih, Option.or_assoc]
      exact Or.inr rfl
  | @right w l r ws _ ih =>
    rw [hcons w ws, hcons w r]
    rcases ih with ih | ih
    · rw [ih, Option.or_assoc]
      exact Or.inl rfl
    · rw [ih]
      cases (Map.ofPairs r).get k with
      | none => exact Or.inl rfl
      | some v => exact Or.inr rfl

/-! ## 2. Schedules -/

/-- The writer leaves `v` at `k`. -/
def Leaves (writer : List (K × V)) (k : K) (v : V) : Prop := (Map.ofPairs writer).get k = some v

/-- A list of writes that the two collections of writers can cause. -/
def Schedule (left right : List (List (K × V))) (ws : List (K × V)) : Prop :=
  ∃ ls rs : List (List (K × V)),
    ls.Perm left ∧ rs.Perm right ∧ Interleave ls.flatten rs.flatten ws

/-- A key that a sequence of writers leaves a value at got it from one of them. -/
theorem get_flatten_eq_some {writers : List (List (K × V))} {k : K} {v : V}
    (h : (Map.ofPairs writers.flatten).get k = some v) : ∃ w ∈ writers, Leaves w k v := by
  induction writers with
  | nil => cases h
  | cons w writers ih =>
    rw [List.flatten_cons, Map.get_ofPairs_append, Option.or_eq_some_iff] at h
    rcases h with h | ⟨-, h⟩
    · obtain ⟨w', hw', hleaves⟩ := ih h
      exact ⟨w', List.mem_cons_of_mem _ hw', hleaves⟩
    · exact ⟨w, List.mem_cons_self, h⟩

theorem get_flatten_eq_none {writers : List (List (K × V))} {k : K}
    (h : (Map.ofPairs writers.flatten).get k = none) :
    ∀ w ∈ writers, (Map.ofPairs w).get k = none := by
  induction writers with
  | nil => exact fun w hw => absurd hw List.not_mem_nil
  | cons w writers ih =>
    rw [List.flatten_cons, Map.get_ofPairs_append, Option.or_eq_none_iff] at h
    intro w' hw'
    rcases List.mem_cons.mp hw' with rfl | hw'
    · exact h.2
    · exact ih h.1 w' hw'

variable {left right : List (List (K × V))} {ws : List (K × V)}

/-- What a schedule leaves at a key, some writer leaves there. -/
theorem Schedule.get_eq_some (h : Schedule left right ws) {k : K} {v : V}
    (hget : (Map.ofPairs ws).get k = some v) : ∃ w ∈ left ++ right, Leaves w k v := by
  obtain ⟨ls, rs, hls, hrs, hinter⟩ := h
  have hfrom : (Map.ofPairs ls.flatten).get k = some v ∨
      (Map.ofPairs rs.flatten).get k = some v := by
    rcases hinter.get_ofPairs k with h | h <;>
      rw [hget, eq_comm, Option.or_eq_some_iff] at h <;> tauto
  rcases hfrom with h | h
  · obtain ⟨w, hw, hleaves⟩ := get_flatten_eq_some h
    exact ⟨w, List.mem_append_left _ (hls.mem_iff.mp hw), hleaves⟩
  · obtain ⟨w, hw, hleaves⟩ := get_flatten_eq_some h
    exact ⟨w, List.mem_append_right _ (hrs.mem_iff.mp hw), hleaves⟩

/-- Where a schedule leaves nothing, no writer leaves anything. -/
theorem Schedule.get_eq_none (h : Schedule left right ws) {k : K}
    (hget : (Map.ofPairs ws).get k = none) : ∀ w ∈ left ++ right, (Map.ofPairs w).get k = none := by
  obtain ⟨ls, rs, hls, hrs, hinter⟩ := h
  have hboth : (Map.ofPairs ls.flatten).get k = none ∧ (Map.ofPairs rs.flatten).get k = none := by
    rcases hinter.get_ofPairs k with h | h <;>
      rw [hget, eq_comm, Option.or_eq_none_iff] at h <;> tauto
  intro w hw
  rcases List.mem_append.mp hw with hw | hw
  · exact get_flatten_eq_none hboth.1 w (hls.mem_iff.mpr hw)
  · exact get_flatten_eq_none hboth.2 w (hrs.mem_iff.mpr hw)

/-- Every writer can come last. -/
theorem exists_schedule {w : List (K × V)} (hw : w ∈ left ++ right) {k : K} {v : V}
    (hleaves : Leaves w k v) :
    ∃ ws, Schedule left right ws ∧ (Map.ofPairs ws).get k = some v := by
  have hlast : ∀ us : List (K × V), (Map.ofPairs (us ++ w)).get k = some v := by
    intro us
    rw [Map.get_ofPairs_append, hleaves, Option.some_or]
  rcases List.mem_append.mp hw with hw | hw
  · -- a writer of the left task: that task runs second and takes `w` last
    obtain ⟨pre, post, rfl⟩ := List.append_of_mem hw
    refine ⟨right.flatten ++ (pre ++ post ++ [w]).flatten,
      ⟨pre ++ post ++ [w], right, ?_, List.Perm.refl _, interleave_append_swap _ _⟩, ?_⟩
    · exact List.perm_append_singleton w (pre ++ post) |>.trans List.perm_middle.symm
    · rw [List.flatten_append, List.flatten_singleton, ← List.append_assoc]
      exact hlast _
  · obtain ⟨pre, post, rfl⟩ := List.append_of_mem hw
    refine ⟨left.flatten ++ (pre ++ post ++ [w]).flatten,
      ⟨left, pre ++ post ++ [w], List.Perm.refl _, ?_, interleave_append _ _⟩, ?_⟩
    · exact List.perm_append_singleton w (pre ++ post) |>.trans List.perm_middle.symm
    · rw [List.flatten_append, List.flatten_singleton, ← List.append_assoc]
      exact hlast _

/-- No two writers leave different values at one key. -/
def NoConflict (writers : List (List (K × V))) : Prop :=
  ∀ w ∈ writers, ∀ w' ∈ writers, ∀ k v v', Leaves w k v → Leaves w' k v' → v = v'

/-- All schedules end in the same map exactly when no two writers are in conflict. -/
theorem schedules_agree_iff :
    (∀ ws ws', Schedule left right ws → Schedule left right ws' →
      Map.ofPairs ws = Map.ofPairs ws') ↔ NoConflict (left ++ right) := by
  constructor
  · intro hagree w hw w' hw' k v v' hleaves hleaves'
    obtain ⟨ws, hs, hget⟩ := exists_schedule hw hleaves
    obtain ⟨ws', hs', hget'⟩ := exists_schedule hw' hleaves'
    rw [hagree ws ws' hs hs', hget', Option.some.injEq] at hget
    exact hget.symm
  · intro hno ws ws' hs hs'
    refine Map.ext fun k => ?_
    cases hget : (Map.ofPairs ws).get k with
    | none =>
      cases hget' : (Map.ofPairs ws').get k with
      | none => rfl
      | some v =>
        obtain ⟨w, hw, hleaves⟩ := hs'.get_eq_some hget'
        rw [Leaves, hs.get_eq_none hget w hw] at hleaves
        cases hleaves
    | some v =>
      obtain ⟨w, hw, hleaves⟩ := hs.get_eq_some hget
      cases hget' : (Map.ofPairs ws').get k with
      | none =>
        rw [Leaves, hs'.get_eq_none hget' w hw] at hleaves
        cases hleaves
      | some v' =>
        obtain ⟨w', hw', hleaves'⟩ := hs'.get_eq_some hget'
        rw [hno w hw w' hw' k v v' hleaves hleaves']

end Writers

end Picoshift
