/-
# A search that may be given up

A loop over a list looks for the first element with an answer.  At each element it has one of three
VERDICTS: here is the answer, go on with the next one, or give up.  The last is what an early return
from inside the loop does, and a search with it is not the same as looking for the first answer: what
stands behind the element where it gives up is never looked at.

`search_eq_some_iff` says what a search finds, and `search_eq_findSome?_iff` when that is the first
answer there is: when the search is not given up in front of it.
-/
import Mathlib.Data.List.Basic

namespace Picoshift.Search

universe u v

variable {α : Type u} {β : Type v}

/-- What a loop does at one element. -/
inductive Verdict (β : Type v) where
  | found (answer : β)
  | next
  | giveUp
  deriving DecidableEq, Repr

/-- The answer of a verdict. -/
def Verdict.answer : Verdict β → Option β
  | found b => some b
  | next => none
  | giveUp => none

theorem Verdict.answer_eq_some_iff {verdict : Verdict β} {b : β} :
    verdict.answer = some b ↔ verdict = found b := by
  cases verdict with
  | found b' => rw [answer, Option.some.injEq, found.injEq]
  | next => exact iff_of_false nofun nofun
  | giveUp => exact iff_of_false nofun nofun

/-- The loop. -/
def search (f : α → Verdict β) : List α → Option β
  | [] => none
  | a :: as =>
    match f a with
    | .found b => some b
    | .next => search f as
    | .giveUp => none

/-- The search passes every element in front of the one that it finds. -/
theorem search_eq_some_iff {f : α → Verdict β} {l : List α} {b : β} :
    search f l = some b ↔ ∃ before a after, l = before ++ a :: after ∧ f a = .found b ∧
      ∀ x ∈ before, f x = .next := by
  induction l with
  | nil =>
    refine iff_of_false nofun ?_
    rintro ⟨before, a, after, h, -⟩
    exact absurd h.symm (by simp)
  | cons x l ih =>
    rw [search]
    constructor
    · intro h
      split at h
      · rename_i b' hx
        obtain rfl := Option.some.inj h
        exact ⟨[], x, l, rfl, hx, nofun⟩
      · rename_i hx
        obtain ⟨before, a, after, rfl, ha, hbefore⟩ := ih.mp h
        exact ⟨x :: before, a, after, rfl, ha, List.forall_mem_cons.mpr ⟨hx, hbefore⟩⟩
      · cases h
    · rintro ⟨before, a, after, hl, ha, hbefore⟩
      cases before with
      | nil =>
        obtain ⟨rfl, rfl⟩ := List.cons.inj hl
        rw [ha]
      | cons y before =>
        obtain ⟨rfl, rfl⟩ := List.cons.inj hl
        obtain ⟨hx, hbefore⟩ := List.forall_mem_cons.mp hbefore
        rw [hx]
        exact ih.mpr ⟨before, a, after, rfl, ha, hbefore⟩

/-- An answer with none in front of it is the first one. -/
theorem findSome?_append_found {f : α → Verdict β} {before : List α} {a : α} {b : β} (ha : f a = .found b)
    (hfirst : ∀ x ∈ before, ∀ b', f x ≠ .found b') (after : List α) :
    (before ++ a :: after).findSome? (fun a => (f a).answer) = some b := by
  have hnone : before.findSome? (fun a => (f a).answer) = none := by
    rw [List.findSome?_eq_none_iff]
    intro x hx
    rw [← Option.not_isSome_iff_eq_none, Option.isSome_iff_exists]
    rintro ⟨b', hb'⟩
    exact hfirst x hx b' (Verdict.answer_eq_some_iff.mp hb')
  rw [List.findSome?_append, hnone, Option.none_or, List.findSome?_cons, ha]
  rfl

/-- What is found is the first answer. -/
theorem findSome?_of_search {f : α → Verdict β} {l : List α} {b : β} (h : search f l = some b) :
    l.findSome? (fun a => (f a).answer) = some b := by
  obtain ⟨before, a, after, rfl, ha, hbefore⟩ := search_eq_some_iff.mp h
  refine findSome?_append_found ha (fun x hx b' hb' => ?_) after
  rw [hbefore x hx] at hb'
  cases hb'

/-- Nothing in front of the first answer makes the search give up. -/
def Unhindered (f : α → Verdict β) (l : List α) : Prop :=
  ∀ before a after b, l = before ++ a :: after → f a = .found b →
    (∀ x ∈ before, ∀ b', f x ≠ .found b') → ∀ x ∈ before, f x ≠ .giveUp

/-- **A search finds the first answer, if there is any, exactly when it is not given up in front of
it.** -/
theorem search_eq_findSome?_iff {f : α → Verdict β} {l : List α} :
    search f l = l.findSome? (fun a => (f a).answer) ↔ Unhindered f l := by
  constructor
  · rintro h before a after b rfl ha hfirst x hx hgive
    rw [findSome?_append_found ha hfirst] at h
    obtain ⟨before', a', after', hl, ha', hbefore'⟩ := search_eq_some_iff.mp h
    -- the element that was found cannot stand in front of the first answer, nor behind `x`
    rcases List.append_eq_append_iff.mp hl with ⟨mid, rfl, hmid⟩ | ⟨mid, rfl, hmid⟩
    · exact absurd (hbefore' x (List.mem_append_left _ hx)) (by rw [hgive]; nofun)
    · cases mid with
      | nil =>
        rw [List.append_nil] at hx
        exact absurd (hbefore' x hx) (by rw [hgive]; nofun)
      | cons y mid =>
        obtain ⟨rfl, -⟩ := List.cons.inj hmid
        exact hfirst a' (List.mem_append_right _ List.mem_cons_self) b ha'
  · intro h
    cases hfind : l.findSome? (fun a => (f a).answer) with
    | none =>
      cases hsearch : search f l with
      | none => rfl
      | some b => exact absurd (findSome?_of_search hsearch) (by rw [hfind]; nofun)
    | some b =>
      obtain ⟨before, a, after, rfl, ha, hfirst⟩ := List.findSome?_eq_some_iff.mp hfind
      rw [Verdict.answer_eq_some_iff] at ha
      have hnot : ∀ x ∈ before, ∀ b', f x ≠ .found b' := by
        intro x hx b' hb'
        have hx := hfirst x hx
        rw [hb'] at hx
        cases hx
      refine search_eq_some_iff.mpr ⟨before, a, after, rfl, ha, fun x hx => ?_⟩
      cases hfx : f x with
      | found b' => exact absurd hfx (hnot x hx b')
      | next => rfl
      | giveUp => exact absurd hfx (h before a after b rfl ha hnot x hx)

end Picoshift.Search
