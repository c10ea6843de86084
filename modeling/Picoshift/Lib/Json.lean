/-
# JSON values

The objects of the Kubernetes API and the claims of a token are read as untyped JSON: a member
is looked up by name, then asked whether it is a text, a list or a number.  A question put to
the wrong kind of value answers `none`, it never fails.

A number is an integer or, kept as its text, anything else; nothing here computes with the
second kind.
-/
import Mathlib.Algebra.Ring.Int.Defs
import Mathlib.Data.List.Basic

namespace Picoshift

/-- A JSON value. -/
inductive Json where
  | null
  | bool (b : Bool)
  | num (n : Int)
  | float (text : String)
  | str (s : String)
  | arr (xs : List Json)
  | obj (fields : List (String × Json))
  deriving Repr

namespace Json

instance : Inhabited Json := ⟨null⟩

/-- `v.get(key)`: the member of an object. -/
def get (j : Json) (key : String) : Option Json :=
  match j with
  | obj fields => fields.lookup key
  | _ => none

/-- `v.as_str()`. -/
def asStr : Json → Option String
  | str s => some s
  | _ => none

/-- `v.as_array()`. -/
def asArray : Json → Option (List Json)
  | arr xs => some xs
  | _ => none

/-- `v.as_u64()`: an integer that fits. -/
def asU64 : Json → Option Nat
  | num n => if 0 ≤ n ∧ n < 2 ^ 64 then some n.toNat else none
  | _ => none

/-- `v.as_bool()`. -/
def asBool : Json → Option Bool
  | bool b => some b
  | _ => none

/-- The object with `value` for the member `key`, over what it had. -/
def set (j : Json) (key : String) (value : Json) : Json :=
  match j with
  | obj fields => obj ((key, value) :: fields.filter fun f => f.1 != key)
  | _ => obj [(key, value)]

@[simp] theorem get_set_self (j : Json) (key : String) (value : Json) :
    (j.set key value).get key = some value := by
  cases j <;> simp [set, get]

theorem lookup_filter_ne {key key' : String} (h : key' ≠ key) (fields : List (String × Json)) :
    (fields.filter fun f => f.1 != key).lookup key' = fields.lookup key' := by
  induction fields with
  | nil => rfl
  | cons f fields ih =>
    obtain ⟨k, v⟩ := f
    rw [List.filter_cons, List.lookup_cons]
    by_cases hk : k = key
    · have hne : (key' == k) = false := by simpa [hk] using h
      rw [hne, if_neg (by simp [hk]), ih]
    · rw [if_pos (by simp [hk]), List.lookup_cons, ih]

@[simp] theorem get_set_ne {key key' : String} (h : key' ≠ key) (j : Json) (value : Json) :
    (j.set key value).get key' = j.get key' := by
  have hne : (key' == key) = false := by simpa using h
  cases j with
  | obj fields => rw [set, get, get, List.lookup_cons, hne, lookup_filter_ne h]
  | _ => simp [set, get, h]

/-- A list of texts, as a value. -/
def ofStrings (xs : List String) : Json := arr (xs.map str)

end Json

end Picoshift
