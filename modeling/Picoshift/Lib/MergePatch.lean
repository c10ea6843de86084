/-
# Merge patches

A merge patch says what is to change by looking like the result: a member of the patch replaces the member of the value
that has the same name, a member that is `null` removes it, and a member that is an object is merged in turn.  What the
patch does not mention stays.  A patch that is no object replaces the whole value.

What a patch does to a value is read off member by member (`get_merge_of_mem`, `get_merge_of_not_mem`).
-/
import Picoshift.Lib.JsonPatch

namespace Picoshift.Json

/-- The value as an object: what is none counts as an empty one. -/
def asObject : Json → Json
  | obj fields => obj fields
  | _ => obj []

mutual

/-- The value with a merge patch applied. -/
def merge (target : Json) : Json → Json
  | obj fields => mergeFields target fields
  | patch => patch

def mergeFields (target : Json) : List (String × Json) → Json
  | [] => target.asObject
  | field :: fields => mergeFields (mergeField target field) fields

def mergeField (target : Json) : String × Json → Json
  | (key, null) => target.remove key
  | (key, value) => target.set key (merge ((target.get key).getD null) value)

end

@[simp] theorem get_asObject (j : Json) (key : String) : j.asObject.get key = j.get key := by
  cases j <;> rfl

theorem get_remove_ne {key key' : String} (h : key' ≠ key) (j : Json) :
    (j.remove key).get key' = j.get key' := by
  cases j with
  | obj fields => exact lookup_filter_ne h fields
  | _ => rfl

@[simp] theorem merge_arr (target : Json) (xs : List Json) : target.merge (arr xs) = arr xs := by
  rw [merge]
  exact nofun

/-- One member of a patch changes one member of the value. -/
theorem get_mergeField_ne {key key' : String} (h : key' ≠ key) (target value : Json) :
    (target.mergeField (key, value)).get key' = target.get key' := by
  cases value with
  | null => rw [mergeField, get_remove_ne h]
  | _ =>
    rw [mergeField, get_set_ne h]
    exact nofun

theorem get_mergeField_self {value : Json} (h : value ≠ null) (target : Json) (key : String) :
    (target.mergeField (key, value)).get key = some (merge ((target.get key).getD null) value) := by
  cases value with
  | null => exact absurd rfl h
  | _ =>
    rw [mergeField, get_set_self]
    exact nofun

theorem get_mergeFields_of_not_mem {key : String} {fields : List (String × Json)}
    (h : key ∉ fields.map Prod.fst) (target : Json) : (target.mergeFields fields).get key = target.get key := by
  induction fields generalizing target with
  | nil => rw [mergeFields, get_asObject]
  | cons field fields ih =>
    obtain ⟨k, v⟩ := field
    rw [List.map_cons, List.mem_cons, not_or] at h
    rw [mergeFields, ih h.2, get_mergeField_ne h.1]

/-- What a patch does not mention stays. -/
theorem get_merge_of_not_mem {key : String} {fields : List (String × Json)} (h : key ∉ fields.map Prod.fst)
    (target : Json) : (target.merge (obj fields)).get key = target.get key := by
  rw [merge, get_mergeFields_of_not_mem h]

theorem get_mergeFields_of_mem {key : String} {value : Json} {fields : List (String × Json)}
    (hnodup : (fields.map Prod.fst).Nodup) (hmem : (key, value) ∈ fields) (hvalue : value ≠ null) (target : Json) :
    (target.mergeFields fields).get key = some (merge ((target.get key).getD null) value) := by
  induction fields generalizing target with
  | nil => cases hmem
  | cons field fields ih =>
    rw [List.map_cons, List.nodup_cons] at hnodup
    rw [mergeFields]
    rcases List.mem_cons.mp hmem with rfl | hrest
    · rw [get_mergeFields_of_not_mem hnodup.1, get_mergeField_self hvalue]
    · -- the members in front are other ones, so they do not matter
      obtain ⟨k, v⟩ := field
      have hkey : key ∈ fields.map Prod.fst := List.mem_map.mpr ⟨_, hrest, rfl⟩
      have hne : key ≠ k := fun h => hnodup.1 (h ▸ hkey)
      rw [ih hnodup.2 hrest, get_mergeField_ne hne]

/-- **What a patch says of a member.** -/
theorem get_merge_of_mem {key : String} {value : Json} {fields : List (String × Json)}
    (hnodup : (fields.map Prod.fst).Nodup) (hmem : (key, value) ∈ fields) (hvalue : value ≠ null) (target : Json) :
    (target.merge (obj fields)).get key = some (merge ((target.get key).getD null) value) := by
  rw [merge, get_mergeFields_of_mem hnodup hmem hvalue]

/-- A patch with one member. -/
theorem get_merge_singleton {value : Json} (hvalue : value ≠ null) (target : Json) (key : String) :
    (target.merge (obj [(key, value)])).get key = some (merge ((target.get key).getD null) value) :=
  get_merge_of_mem (by simp) List.mem_cons_self hvalue target

end Picoshift.Json
