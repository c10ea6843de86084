/-
# Finite maps, read as partial functions

A hash map is used here only through lookup, insertion, removal and `retain`, and no reader
of one depends on its iteration order or its size.  So a map IS its lookup function, two maps
with the same lookups are equal, and every operation is described by one equation about
`get`.

The second half is about maps that are only ever WRITTEN: a list of writes applied from left
to right.  What a key ends up with is its last write, and what was there before counts only where
the list is silent (`get_writeAll`, `get_ofPairs_append`).

The last part compares a map with what evictions have left of it: `Thins gone m m'` says that `m` is
`m'` but for some entries that are gone for good, and every operation on both keeps it.
-/
import Mathlib.Data.List.Induction

namespace Picoshift

universe u v

/-- A map from `K` to `V`: the partial function it looks up. -/
def Map (K : Type u) (V : Type v) := K → Option V

namespace Map

variable {K : Type u} {V : Type v}

/-! ## 1. The operations -/

/-- What the map holds at `k`. -/
def get (m : Map K V) (k : K) : Option V := m k

/-- The map with no entries. -/
def empty : Map K V := fun _ => none

instance : Inhabited (Map K V) := ⟨empty⟩

/-- Keep the entries that satisfy `p`. -/
def retain (m : Map K V) (p : K → V → Bool) : Map K V := fun k => (m k).filter (p k)

section

variable [DecidableEq K]

/-- Write `v` at `k`, over whatever was there. -/
def insert (m : Map K V) (k : K) (v : V) : Map K V := fun k' => if k' = k then some v else m k'

/-- Drop the entry at `k`. -/
def erase (m : Map K V) (k : K) : Map K V := fun k' => if k' = k then none else m k'

end

theorem ext {m m' : Map K V} (h : ∀ k, m.get k = m'.get k) : m = m' := funext h

@[simp] theorem get_empty (k : K) : (empty : Map K V).get k = none := rfl

@[simp] theorem get_retain (m : Map K V) (p : K → V → Bool) (k : K) :
    (m.retain p).get k = (m.get k).filter (p k) := rfl

/-- What survives `retain` was there before, and passes the test. -/
theorem get_retain_eq_some {m : Map K V} {p : K → V → Bool} {k : K} {v : V} :
    (m.retain p).get k = some v ↔ m.get k = some v ∧ p k v = true := by
  rw [get_retain, Option.filter_eq_some_iff]

variable [DecidableEq K]

@[simp] theorem get_insert_self (m : Map K V) (k : K) (v : V) : (m.insert k v).get k = some v := by
  simp [get, insert]

@[simp] theorem get_insert_ne {m : Map K V} {k k' : K} (v : V) (h : k' ≠ k) :
    (m.insert k v).get k' = m.get k' := by
  simp [get, insert, h]

@[simp] theorem get_erase_self (m : Map K V) (k : K) : (m.erase k).get k = none := by
  simp [get, erase]

@[simp] theorem get_erase_ne {m : Map K V} {k k' : K} (h : k' ≠ k) :
    (m.erase k).get k' = m.get k' := by
  simp [get, erase, h]

/-- What survives a removal was there before, at another key. -/
theorem get_erase_eq_some {m : Map K V} {k k' : K} {v : V} :
    (m.erase k).get k' = some v ↔ k' ≠ k ∧ m.get k' = some v := by
  by_cases h : k' = k
  · subst h; simp
  · simp [h]

/-- What is found after an insertion is the new entry, or was there before at another key. -/
theorem get_insert_eq_some {m : Map K V} {k k' : K} {v w : V} :
    (m.insert k v).get k' = some w ↔ (k' = k ∧ v = w) ∨ (k' ≠ k ∧ m.get k' = some w) := by
  by_cases h : k' = k
  · subst h; simp
  · simp [h]

@[simp] theorem insert_insert (m : Map K V) (k : K) (v w : V) :
    (m.insert k v).insert k w = m.insert k w :=
  ext fun k' => by
    by_cases h : k' = k
    · subst h; simp
    · simp [h]

@[simp] theorem insert_erase (m : Map K V) (k : K) (v : V) :
    (m.erase k).insert k v = m.insert k v :=
  ext fun k' => by
    by_cases h : k' = k
    · subst h; simp
    · simp [h]

/-- Removing what was not there before its insertion restores the map. -/
theorem erase_insert {m : Map K V} {k : K} (hk : m.get k = none) (v : V) :
    (m.insert k v).erase k = m :=
  ext fun k' => by
    by_cases h : k' = k
    · subst h; simp [hk]
    · simp [h]

/-! ## 2. Writing a whole list -/

/-- Apply a list of writes from left to right. -/
def writeAll (m : Map K V) (ws : List (K × V)) : Map K V :=
  ws.foldl (fun m w => m.insert w.1 w.2) m

/-- Collect a list of pairs into a map: a later pair wins over an earlier one. -/
def ofPairs (ws : List (K × V)) : Map K V := empty.writeAll ws

@[simp] theorem writeAll_nil (m : Map K V) : m.writeAll [] = m := rfl

@[simp] theorem writeAll_cons (m : Map K V) (w : K × V) (ws : List (K × V)) :
    m.writeAll (w :: ws) = (m.insert w.1 w.2).writeAll ws := rfl

theorem writeAll_append (m : Map K V) (ws ws' : List (K × V)) :
    m.writeAll (ws ++ ws') = (m.writeAll ws).writeAll ws' := by
  simp [writeAll, List.foldl_append]

@[simp] theorem writeAll_append_singleton (m : Map K V) (ws : List (K × V)) (w : K × V) :
    m.writeAll (ws ++ [w]) = (m.writeAll ws).insert w.1 w.2 := by
  rw [writeAll_append]; rfl

/-- A key nobody writes keeps its entry. -/
theorem get_writeAll_of_not_mem {m : Map K V} {ws : List (K × V)} {k : K}
    (h : ∀ w ∈ ws, w.1 ≠ k) : (m.writeAll ws).get k = m.get k := by
  induction ws generalizing m with
  | nil => rfl
  | cons w ws ih =>
    rw [writeAll_cons, ih fun w' hw' => h w' (List.mem_cons_of_mem _ hw'),
      get_insert_ne _ (h w List.mem_cons_self).symm]

/-- What a list of writes leaves at a key, in terms of the writes alone: their own last value, or
what was there. -/
theorem get_writeAll (m : Map K V) (ws : List (K × V)) (k : K) :
    (m.writeAll ws).get k = ((ofPairs ws).get k).or (m.get k) := by
  induction ws using List.reverseRecOn with
  | nil => simp [ofPairs]
  | append_singleton ws w ih =>
    rw [ofPairs, writeAll_append_singleton, writeAll_append_singleton]
    by_cases hk : k = w.1
    · rw [hk, get_insert_self, get_insert_self, Option.some_or]
    · rw [get_insert_ne _ hk, get_insert_ne _ hk, ih, ofPairs]

theorem get_ofPairs_append (ws ws' : List (K × V)) (k : K) :
    (ofPairs (ws ++ ws')).get k = ((ofPairs ws').get k).or ((ofPairs ws).get k) := by
  rw [ofPairs, writeAll_append, get_writeAll]
  rfl

/-- What is found in a list of pairs stands in it. -/
theorem mem_of_get_ofPairs {ws : List (K × V)} {k : K} {v : V} (h : (ofPairs ws).get k = some v) :
    (k, v) ∈ ws := by
  induction ws using List.reverseRecOn with
  | nil => cases h
  | append_singleton ws w ih =>
    rw [ofPairs, writeAll_append_singleton] at h
    rcases get_insert_eq_some.mp h with ⟨rfl, rfl⟩ | ⟨-, h⟩
    · exact List.mem_append_right _ List.mem_cons_self
    · exact List.mem_append_left _ (ih h)

/-- Where no key stands twice, every pair is found. -/
theorem get_ofPairs_of_mem {ws : List (K × V)} (hnodup : (ws.map Prod.fst).Nodup) {k : K} {v : V}
    (h : (k, v) ∈ ws) : (ofPairs ws).get k = some v := by
  induction ws using List.reverseRecOn with
  | nil => exact absurd h List.not_mem_nil
  | append_singleton ws w ih =>
    rw [List.map_append, List.nodup_append] at hnodup
    rw [ofPairs, writeAll_append_singleton, get_insert_eq_some]
    rcases List.mem_append.mp h with h | h
    · have hne : k ≠ w.1 :=
        hnodup.2.2 k (List.mem_map_of_mem h) w.1 (by simp)
      exact Or.inr ⟨hne, ih hnodup.1 h⟩
    · rw [List.mem_singleton] at h
      subst h
      exact Or.inl ⟨rfl, rfl⟩

/-! ## 3. A map that is evicted from -/

/-- `m` is `m'` without some of its entries, all of them `gone`. -/
def Thins (gone : V → Prop) (m m' : Map K V) : Prop :=
  ∀ k, m.get k = m'.get k ∨ (m.get k = none ∧ ∃ v, m'.get k = some v ∧ gone v)

namespace Thins

variable {gone gone' : V → Prop} {m m' : Map K V}

omit [DecidableEq K] in
theorem refl (gone : V → Prop) (m : Map K V) : Thins gone m m := fun _ => Or.inl rfl

omit [DecidableEq K] in
theorem mono (h : Thins gone m m') (hgone : ∀ v, gone v → gone' v) : Thins gone' m m' := by
  intro k
  rcases h k with h | ⟨hnone, v, hv, hg⟩
  · exact Or.inl h
  · exact Or.inr ⟨hnone, v, hv, hgone v hg⟩

theorem insert (h : Thins gone m m') (k : K) (v : V) : Thins gone (m.insert k v) (m'.insert k v) := by
  intro k'
  by_cases hk : k' = k
  · subst hk
    exact Or.inl (by rw [get_insert_self, get_insert_self])
  · rw [get_insert_ne v hk, get_insert_ne v hk]
    exact h k'

theorem erase (h : Thins gone m m') (k : K) : Thins gone (m.erase k) (m'.erase k) := by
  intro k'
  by_cases hk : k' = k
  · subst hk
    exact Or.inl (by rw [get_erase_self, get_erase_self])
  · rw [get_erase_ne hk, get_erase_ne hk]
    exact h k'

/-- What is erased from the full map may be gone from the other one already. -/
theorem erase_right (h : Thins gone m m') {k : K} (hk : m.get k = none) :
    Thins gone m (m'.erase k) := by
  have hsame : m.erase k = m := by
    refine ext fun k' => ?_
    by_cases hk' : k' = k
    · rw [hk', get_erase_self, hk]
    · rw [get_erase_ne hk']
  have herase := h.erase k
  rwa [hsame] at herase

omit [DecidableEq K] in
/-- One more eviction, of entries that are gone. -/
theorem retain_left (h : Thins gone m m') {p : K → V → Bool}
    (hp : ∀ k v, m.get k = some v → p k v = false → gone v) : Thins gone (m.retain p) m' := by
  intro k
  rw [get_retain]
  cases hget : m.get k with
  | none =>
    rcases h k with hk | ⟨-, hk⟩
    · exact Or.inl (by rw [← hk, hget]; rfl)
    · exact Or.inr ⟨rfl, hk⟩
  | some v =>
    have hfull : m'.get k = some v := by
      rcases h k with hk | ⟨hk, -⟩
      · rw [← hk, hget]
      · rw [hget] at hk
        cases hk
    cases hkeep : p k v with
    | true => exact Or.inl (by rw [Option.filter_some, hkeep, hfull]; rfl)
    | false =>
      refine Or.inr ⟨?_, v, hfull, hp k v hget hkeep⟩
      rw [Option.filter_some, hkeep]
      rfl

end Thins

end Map

end Picoshift
