/-
# Following one object

The versions of one object are a list that only grows, `none` where the object does not exist.  A WATCH is a
place in that list: it delivers the versions from there on, one by one, and a new list of the collection puts
it in front of the last version, or behind it when there is nothing to list.

A FOLLOWER keeps a copy that it loads from the versions it is shown.  Not every version can be loaded, and
those that cannot, like the object's being gone, leave the copy alone.  So the copy is what some first part of
the versions leaves (`lastLoaded`); the part never gets shorter, and it is everything once the watch has
nothing to deliver and the last version can be loaded (`Behind`).
-/
import Picoshift.Lib.Machine
import Mathlib.Order.Monotone.Basic

namespace Picoshift

universe u v w

/-! ## 1. A watch -/

/-- The versions of the object so far, and how many of them the watch has passed. -/
structure Watch (V : Type u) where
  versions : List (Option V)
  next : Nat

namespace Watch

variable {V : Type u}

/-- The object as it is. -/
def current (watch : Watch V) : Option V := watch.versions.getLast?.join

/-- There is nothing to deliver. -/
def Idle (watch : Watch V) : Prop := watch.next = watch.versions.length

/-- The object changes, or goes. -/
def write (watch : Watch V) (version : Option V) : Watch V :=
  { watch with versions := watch.versions ++ [version] }

/-- What comes next. -/
def delivery (watch : Watch V) : Option (Option V) := watch.versions[watch.next]?

/-- The next version has been delivered. -/
def pass (watch : Watch V) : Watch V :=
  { watch with next := watch.next + (watch.delivery.map fun _ => 1).getD 0 }

/-- The collection is listed anew. -/
def relist (watch : Watch V) : Watch V :=
  { watch with next := watch.versions.length - (watch.current.map fun _ => 1).getD 0 }

/-- The watch of a new process, which begins with a list. -/
def start (version : Option V) : Watch V := relist ⟨[version], 0⟩

@[simp] theorem current_write (watch : Watch V) (version : Option V) :
    (watch.write version).current = version := by
  simp [current, write]

end Watch

/-! ## 2. A follower -/

section Follower

variable {V : Type u} {S : Type v} (load : V → Option S)

/-- The copy after a version. -/
def loadNext (copy : S) (version : Option V) : S := (version.bind load).getD copy

/-- The copy after all of them. -/
def lastLoaded (copy : S) (versions : List (Option V)) : S := versions.foldl (loadNext load) copy

theorem lastLoaded_append_singleton (copy : S) (versions : List (Option V)) (version : Option V) :
    lastLoaded load copy (versions ++ [version]) = loadNext load (lastLoaded load copy versions) version := by
  rw [lastLoaded, List.foldl_append]
  rfl

/-- Versions that cannot be loaded do not count. -/
theorem lastLoaded_append_of_none (copy : S) (versions : List (Option V)) {added : List (Option V)}
    (h : ∀ version ∈ added, version.bind load = none) :
    lastLoaded load copy (versions ++ added) = lastLoaded load copy versions := by
  induction added using List.reverseRecOn with
  | nil => rw [List.append_nil]
  | append_singleton added version ih =>
    rw [← List.append_assoc, lastLoaded_append_singleton, loadNext,
      h version (List.mem_append_right _ (List.mem_singleton_self _)), Option.getD_none]
    exact ih fun v hv => h v (List.mem_append_left _ hv)

/-- Where the last version can be loaded, it is all that counts. -/
theorem lastLoaded_of_current {watch : Watch V} {object : V} {s : S} (hcurrent : watch.current = some object)
    (hload : load object = some s) (copy : S) : lastLoaded load copy watch.versions = s := by
  have hlast : watch.versions.getLast? = some (some object) := by
    simpa [Watch.current, Option.join_eq_some_iff] using hcurrent
  obtain ⟨before, heq⟩ := List.getLast?_eq_some_iff.mp hlast
  rw [heq, lastLoaded_append_singleton, loadNext, Option.bind_some, hload]
  rfl

/-- The copy is that of the first `k` versions. -/
structure Behind (initial : S) (watch : Watch V) (copy : S) (k : Nat) : Prop where
  next_le : watch.next ≤ watch.versions.length
  seen_le : k ≤ watch.versions.length
  seen_next : k ≤ watch.next + 1
  copy_eq : copy = lastLoaded load initial (watch.versions.take k)
  caught_up : watch.Idle → ∀ object, watch.current = some object → (load object).isSome →
    k = watch.versions.length

variable {load} {initial : S} {watch : Watch V} {copy : S} {k : Nat}

theorem behind_start (initial : S) (version : Option V) : Behind load initial (Watch.start version) initial 0 where
  next_le := Nat.sub_le _ _
  seen_le := Nat.zero_le _
  seen_next := Nat.zero_le _
  copy_eq := rfl
  caught_up hidle object hcurrent _ := by
    cases version with
    | none => cases hcurrent
    | some _ => cases hidle

theorem Behind.write (h : Behind load initial watch copy k) (version : Option V) :
    Behind load initial (watch.write version) copy k where
  next_le := h.next_le.trans (by simp [Watch.write])
  seen_le := h.seen_le.trans (by simp [Watch.write])
  seen_next := h.seen_next
  copy_eq := by
    rw [Watch.write, List.take_append_of_le_length h.seen_le]
    exact h.copy_eq
  caught_up hidle := by
    have hnext := h.next_le
    simp only [Watch.Idle, Watch.write, List.length_append, List.length_singleton] at hidle
    omega

/-- A version that can be loaded brings the copy to its place, any other one leaves it behind. -/
theorem Behind.deliver (h : Behind load initial watch copy k) {version : Option V}
    (hversion : watch.delivery = some version) :
    ∃ k' ≥ k, Behind load initial watch.pass (loadNext load copy version) k' := by
  obtain ⟨hlt, -⟩ := List.getElem?_eq_some_iff.mp hversion
  have hpass : watch.pass = { watch with next := watch.next + 1 } := by rw [Watch.pass, hversion]; rfl
  rw [hpass]
  have hcurrent : watch.next + 1 = watch.versions.length → watch.current = version := by
    intro hlast
    rw [Watch.current, List.getLast?_eq_getElem?, ← hlast, Nat.add_sub_cancel]
    exact (congrArg Option.join hversion).trans rfl
  cases hload : version.bind load with
  | none =>
    refine ⟨k, le_rfl, hlt, h.seen_le, h.seen_next.trans (Nat.le_succ _), ?_, ?_⟩
    · rw [loadNext, hload]
      exact h.copy_eq
    · intro hidle object hobject hsome
      rw [show version = some object from (hcurrent hidle).symm.trans hobject, Option.bind_some] at hload
      rw [hload] at hsome
      cases hsome
  | some s =>
    refine ⟨watch.next + 1, h.seen_next, hlt, hlt, Nat.le_succ _, ?_, fun hidle _ _ _ => hidle⟩
    rw [List.take_add_one, show watch.versions[watch.next]? = some version from hversion, Option.toList_some,
      lastLoaded_append_singleton, loadNext, loadNext, hload]
    rfl

theorem Behind.relist (h : Behind load initial watch copy k) : Behind load initial watch.relist copy k where
  next_le := Nat.sub_le _ _
  seen_le := h.seen_le
  seen_next := by
    have hseen := h.seen_le
    show k ≤ watch.versions.length - _ + 1
    cases watch.current with
    | none => exact hseen.trans (Nat.le_succ _)
    | some _ =>
      show k ≤ watch.versions.length - 1 + 1
      omega
  copy_eq := h.copy_eq
  caught_up hidle object hobject _ := by
    have hnone : watch.versions ≠ [] := by
      intro hnil
      rw [show watch.relist.current = watch.current from rfl, Watch.current, hnil] at hobject
      cases hobject
    have hlength := List.length_pos_iff.mpr hnone
    have hnext : watch.versions.length - (watch.current.map fun _ => 1).getD 0 = watch.versions.length := hidle
    rw [show watch.current = some object from hobject] at hnext
    simp only [Option.map_some, Option.getD_some] at hnext
    omega

end Follower

/-! ## 3. Runs that never go back -/

/-- Where no step takes away from a number, the numbers of a run can be chosen to grow. -/
theorem Machine.exists_monotone {σ : Type u} {ι : Type v} {ο : Type w} (M : Machine σ ι ο)
    {P : List (Entry σ ι ο) → σ → Nat → Prop} (is : List ι)
    (hstep : ∀ h s k, ∀ i ∈ is, P h s k → ∃ k' ≥ k, P (h ++ [M.entry s i]) (M.step s i).1 k') {s₀ : σ} {k₀ : Nat}
    (h0 : P [] s₀ k₀) : ∃ seen : Nat → Nat, seen 0 = k₀ ∧ Monotone seen ∧
      ∀ n, P (M.trace s₀ (is.take n)) (M.exec s₀ (is.take n)) (seen n) := by
  suffices hall : ∀ h s k, P h s k → ∃ seen : Nat → Nat, seen 0 = k ∧ Monotone seen ∧
      ∀ n, P (h ++ M.trace s (is.take n)) (M.exec s (is.take n)) (seen n) from hall [] s₀ k₀ h0
  clear h0
  induction is with
  | nil => exact fun h s k hk => ⟨fun _ => k, rfl, monotone_const, fun n => by simpa using hk⟩
  | cons i is ih =>
    intro h s k hk
    obtain ⟨k₁, hle, h1⟩ := hstep h s k i List.mem_cons_self hk
    obtain ⟨seen, hstart, hmono, hall⟩ := ih (fun h s k j hj => hstep h s k j (List.mem_cons_of_mem _ hj)) _ _ _ h1
    refine ⟨fun n => n.casesOn k seen, rfl, monotone_nat_of_le_succ fun n => ?_, fun n => ?_⟩
    · cases n with
      | zero => exact hle.trans hstart.ge
      | succ n => exact hmono (Nat.le_succ n)
    · cases n with
      | zero => simpa using hk
      | succ n =>
        have hn := hall n
        rw [List.append_assoc] at hn
        exact hn

end Picoshift
