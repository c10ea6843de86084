/-
# JSON patches

A JSON patch is a list of operations, each with a POINTER: a text such as `/spec/containers/0/name`
that leads through the members of objects and the elements of lists.  The one operation in use is
`add`, which puts a value where the pointer leads: over the member of an object, or between two
elements of a list.  Every place on the way has to be there already; where one is missing the whole
patch is refused (`none`).

A member that is replaced keeps its place among the others, so a patch that touches one member gives
the SAME value everywhere else, as an equation.  Two facts about several operations in a row: they
can be carried out below a member (`addAll_under`), and adding to every element of a list, index by
index, is one map over the list (`addAll_elements`).
-/
import Mathlib.Data.List.Basic
import Picoshift.Lib.Json
import Picoshift.Lib.Str

namespace Picoshift

namespace Json

/-! ## 1. Members in place -/

/-- The members with `value` for `key`: in the place of the old one, or at the end. -/
def putField (key : String) (value : Json) : List (String × Json) → List (String × Json)
  | [] => [(key, value)]
  | (k, v) :: fields =>
    if k = key then (key, value) :: fields else (k, v) :: putField key value fields

/-- The members with `f` applied to the one called `key`. -/
def updateField (key : String) (f : Json → Json) : List (String × Json) → List (String × Json)
  | [] => []
  | (k, v) :: fields =>
    if k = key then (k, f v) :: fields else (k, v) :: updateField key f fields

/-- The object with `f` applied to its member `key`; any other value as it is. -/
def update (key : String) (f : Json → Json) : Json → Json
  | obj fields => obj (updateField key f fields)
  | j => j

/-- The object without its member `key`; any other value as it is. -/
def remove (key : String) : Json → Json
  | obj fields => obj (fields.filter fun f => f.1 != key)
  | j => j

/-- The value that is reached from member to member. -/
def follow (j : Json) : List String → Option Json
  | [] => some j
  | key :: path => (j.get key).bind (follow · path)

section Fields

variable {key : String} {fields : List (String × Json)}

theorem lookup_cons_ite (key k : String) (v : Json) (fields : List (String × Json)) :
    ((k, v) :: fields).lookup key = if k = key then some v else fields.lookup key := by
  rw [List.lookup_cons]
  by_cases h : k = key
  · subst h
    simp
  · have hne : (key == k) = false := by simpa using Ne.symm h
    rw [hne, if_neg h]

@[simp] theorem lookup_putField_self (key : String) (value : Json)
    (fields : List (String × Json)) : (putField key value fields).lookup key = some value := by
  induction fields with
  | nil => simp [putField]
  | cons f fields ih =>
    obtain ⟨k, v⟩ := f
    rw [putField]
    split
    · rw [lookup_cons_ite, if_pos rfl]
    · rename_i h
      rw [lookup_cons_ite, if_neg h, ih]

theorem lookup_putField_ne {key key' : String} (h : key' ≠ key) (value : Json)
    (fields : List (String × Json)) : (putField key value fields).lookup key' = fields.lookup key' := by
  induction fields with
  | nil => rw [putField, lookup_cons_ite, if_neg h.symm]
  | cons f fields ih =>
    obtain ⟨k, v⟩ := f
    rw [putField]
    split
    · rename_i hk
      rw [lookup_cons_ite, lookup_cons_ite, if_neg h.symm, hk, if_neg h.symm]
    · rw [lookup_cons_ite, lookup_cons_ite, ih]

@[simp] theorem putField_putField (key : String) (v w : Json) (fields : List (String × Json)) :
    putField key w (putField key v fields) = putField key w fields := by
  induction fields with
  | nil => simp [putField]
  | cons f fields ih =>
    obtain ⟨k, u⟩ := f
    by_cases h : k = key
    · simp [putField, h]
    · simp [putField, h, ih]

/-- Writing what is there changes nothing. -/
theorem putField_of_lookup {v : Json} (h : fields.lookup key = some v) :
    putField key v fields = fields := by
  induction fields with
  | nil => cases h
  | cons f fields ih =>
    obtain ⟨k, u⟩ := f
    rw [lookup_cons_ite] at h
    rw [putField]
    split
    · rename_i hk
      rw [if_pos hk, Option.some.injEq] at h
      rw [hk, h]
    · rename_i hk
      rw [if_neg hk] at h
      rw [ih h]

/-- An update of a member that is there is a write. -/
theorem updateField_eq_putField {f : Json → Json} {v : Json} (h : fields.lookup key = some v) :
    updateField key f fields = putField key (f v) fields := by
  induction fields with
  | nil => cases h
  | cons e fields ih =>
    obtain ⟨k, u⟩ := e
    rw [lookup_cons_ite] at h
    by_cases hk : k = key
    · rw [if_pos hk, Option.some.injEq] at h
      simp [putField, updateField, hk, h]
    · rw [if_neg hk] at h
      simp [putField, updateField, hk, ih h]

/-- Where the new member looks like the old one, the objects do. -/
theorem updateField_putField {f : Json → Json} {v w : Json} (h : fields.lookup key = some v)
    (hf : f w = f v) : updateField key f (putField key w fields) = updateField key f fields := by
  rw [updateField_eq_putField (lookup_putField_self key w fields), updateField_eq_putField h, hf,
    putField_putField]

/-- An update that leaves the member as it is leaves the object as it is. -/
theorem updateField_of_fixed {f : Json → Json}
    (h : ∀ v, fields.lookup key = some v → f v = v) : updateField key f fields = fields := by
  cases hv : fields.lookup key with
  | some v => rw [updateField_eq_putField hv, h v hv, putField_of_lookup hv]
  | none =>
    induction fields with
    | nil => rfl
    | cons e fields ih =>
      obtain ⟨k, u⟩ := e
      rw [lookup_cons_ite] at hv
      by_cases hk : k = key
      · rw [if_pos hk] at hv
        cases hv
      · rw [if_neg hk] at hv
        rw [updateField, if_neg hk, ih (fun v h' => absurd (hv.symm.trans h') (by simp)) hv]

theorem filter_putField (key : String) (v : Json) (fields : List (String × Json)) :
    ((putField key v fields).filter fun f => f.1 != key) = fields.filter fun f => f.1 != key := by
  induction fields with
  | nil => simp [putField]
  | cons f fields ih =>
    obtain ⟨k, u⟩ := f
    by_cases hk : k = key
    · simp [putField, hk]
    · simp [putField, hk, ih]

end Fields

end Json

namespace JsonPatch

open Json

/-! ## 2. Pointers -/

/-- The escapes of a pointer: `~1` is a slash, `~0` a tilde. -/
def unescape : List Char → List Char
  | '~' :: '1' :: l => '/' :: unescape l
  | '~' :: '0' :: l => '~' :: unescape l
  | c :: l => c :: unescape l
  | [] => []

/-- The tokens of a pointer; the empty pointer leads to the whole value. -/
def tokens (path : String) : Option (List String) :=
  match path.toList with
  | [] => some []
  | '/' :: rest => some ((Str.splitL '/' rest).map fun tok => String.ofList (unescape tok))
  | _ => none

/-- The index a token stands for: decimal, without leading zeros. -/
def index (tok : String) : Option Nat :=
  (Str.digitsL tok.toList).filter fun n => toString n = tok

theorem unescape_of_not_mem {l : List Char} (h : '~' ∉ l) : unescape l = l := by
  induction l with
  | nil => rfl
  | cons c l ih =>
    have hc : c ≠ '~' := fun e => h (e ▸ List.mem_cons_self)
    rw [unescape, ih fun hm => h (List.mem_cons_of_mem _ hm)]
    · exact fun _ hl _ => hc hl
    · exact fun _ hl _ => hc hl

/-- A pointer written token by token. -/
theorem tokens_cons {tok path : String} (h : '/' ∉ tok.toList ∧ '~' ∉ tok.toList)
    (hpath : path.toList.head? = some '/') :
    tokens ("/" ++ tok ++ path) = (tokens path).map (tok :: ·) := by
  obtain ⟨rest, hrest⟩ : ∃ rest, path.toList = '/' :: rest := by
    cases hl : path.toList with
    | nil => rw [hl] at hpath; cases hpath
    | cons c rest =>
      rw [hl, List.head?_cons, Option.some.injEq] at hpath
      exact ⟨rest, by rw [hpath]⟩
  have htext : ("/" ++ tok ++ path).toList = '/' :: (tok.toList ++ '/' :: rest) := by
    rw [String.toList_append, String.toList_append, hrest]
    rfl
  rw [tokens, tokens, htext, hrest]
  simp only [Option.map_some, Str.splitL_append h.1, List.map_cons, unescape_of_not_mem h.2,
    String.ofList_toList]

theorem tokens_singleton {tok : String} (h : '/' ∉ tok.toList ∧ '~' ∉ tok.toList) :
    tokens ("/" ++ tok) = some [tok] := by
  have htext : ("/" ++ tok).toList = '/' :: tok.toList := by
    rw [String.toList_append]
    rfl
  rw [tokens, htext]
  simp only [Str.splitL_of_not_mem h.1, List.map_cons, List.map_nil, unescape_of_not_mem h.2,
    String.ofList_toList]

@[simp] theorem index_toString (n : Nat) : index (toString n) = some n := by
  rw [index, Str.toList_toString, Str.digitsL_toDigits]
  simp

/-! ## 3. The operation `add` -/

/-- Put `value` where the tokens lead. -/
def addAt (value : Json) : List String → Json → Option Json
  | [], _ => some value
  | [tok], obj fields => some (obj (putField tok value fields))
  | [tok], arr xs =>
    if tok = "-" then some (arr (xs ++ [value]))
    else (index tok).bind fun i =>
      if i ≤ xs.length then some (arr (xs.insertIdx i value)) else none
  | tok :: rest, obj fields =>
    (fields.lookup tok).bind fun j =>
      (addAt value rest j).map fun j' => obj (putField tok j' fields)
  | tok :: rest, arr xs =>
    (index tok).bind fun i => xs[i]?.bind fun j =>
      (addAt value rest j).map fun j' => arr (xs.set i j')
  | _, _ => none

/-- One operation, as the JSON it is written in. -/
def addOp (path : String) (value : Json) : Json :=
  .obj [("op", .str "add"), ("path", .str path), ("value", value)]

/-- Carry out one operation.  `add` is the only one that is known here. -/
def applyOp (j op : Json) : Option Json :=
  if (op.get "op").bind asStr = some "add" then
    (((op.get "path").bind asStr).bind tokens).bind fun toks =>
      (op.get "value").bind fun value => addAt value toks j
  else none

/-- Carry out a patch: its operations, one after the other. -/
def apply (ops : List Json) (j : Json) : Option Json := ops.foldlM applyOp j

/-- The same value put in several places, one after the other. -/
def addAll (value : Json) (places : List (List String)) (j : Json) : Option Json :=
  places.foldlM (fun j toks => addAt value toks j) j

theorem applyOp_addOp {path : String} {toks : List String} (h : tokens path = some toks)
    (value j : Json) : applyOp j (addOp path value) = addAt value toks j := by
  simp [applyOp, addOp, Json.get, List.lookup_cons, asStr, h]

/-- A patch of `add`s of one value. -/
theorem apply_addOps {ι : Type} {path : ι → String} {toks : ι → List String}
    (h : ∀ i, tokens (path i) = some (toks i)) (value : Json) (is : List ι) (j : Json) :
    apply (is.map fun i => addOp (path i) value) j = addAll value (is.map toks) j := by
  induction is generalizing j with
  | nil => rfl
  | cons i is ih =>
    simp only [apply, addAll, List.map_cons, List.foldlM_cons, applyOp_addOp (h i)] at ih ⊢
    cases addAt value (toks i) j with
    | none => rfl
    | some j' => exact ih j'

theorem addAt_cons_obj {rest : List String} (hrest : rest ≠ []) (value : Json) (tok : String)
    (fields : List (String × Json)) : addAt value (tok :: rest) (.obj fields) =
      (fields.lookup tok).bind fun j =>
        (addAt value rest j).map fun j' => .obj (putField tok j' fields) := by
  cases rest with
  | nil => exact absurd rfl hrest
  | cons tok' rest => rfl

theorem addAt_cons_arr {rest : List String} (hrest : rest ≠ []) (value : Json) (i : Nat)
    (xs : List Json) : addAt value (toString i :: rest) (.arr xs) =
      xs[i]?.bind fun j => (addAt value rest j).map fun j' => .arr (xs.set i j') := by
  cases rest with
  | nil => exact absurd rfl hrest
  | cons tok' rest =>
    rw [addAt, index_toString, Option.bind_some]
    exact hrest

/-- A token that names a member: it is no index and not the end of a list. -/
def IsMember (tok : String) : Prop := index tok = none ∧ tok ≠ "-"

instance : DecidablePred IsMember := fun _ => inferInstanceAs (Decidable (_ ∧ _))

/-- An operation whose pointer begins with a member writes that member of an object: the value itself, or
what the rest of the pointer made of the old one. -/
theorem addAt_eq_some {tok : String} (htok : IsMember tok) {rest : List String} {value j j' : Json}
    (h : addAt value (tok :: rest) j = some j') : ∃ fields c', j = .obj fields ∧
      j' = .obj (putField tok c' fields) ∧
      ((rest = [] ∧ c' = value) ∨
        (rest ≠ [] ∧ ∃ c, fields.lookup tok = some c ∧ addAt value rest c = some c')) := by
  cases rest with
  | nil =>
    cases j with
    | obj fields =>
      rw [addAt, Option.some.injEq] at h
      exact ⟨fields, value, rfl, h.symm, Or.inl ⟨rfl, rfl⟩⟩
    | arr xs => simp [addAt, htok.1, htok.2] at h
    | _ => cases h
  | cons tok' rest =>
    cases j with
    | obj fields =>
      rw [addAt_cons_obj (by simp)] at h
      obtain ⟨c, hc, h⟩ := Option.bind_eq_some_iff.mp h
      obtain ⟨c', hc', rfl⟩ := Option.map_eq_some_iff.mp h
      exact ⟨fields, c', rfl, rfl, Or.inr ⟨by simp, c, hc, hc'⟩⟩
    | arr xs => simp [addAt, htok.1] at h
    | _ => cases h

theorem get_of_addAt {tok : String} (htok : IsMember tok) {rest : List String} {value j j' : Json}
    (h : addAt value (tok :: rest) j = some j') : ∃ c', j'.get tok = some c' ∧
      ((rest = [] ∧ c' = value) ∨
        (rest ≠ [] ∧ ∃ c, j.get tok = some c ∧ addAt value rest c = some c')) := by
  obtain ⟨fields, c', rfl, rfl, hc'⟩ := addAt_eq_some htok h
  exact ⟨c', lookup_putField_self _ _ _, hc'⟩

/-- A member can be added to every object that is reached from member to member. -/
theorem exists_addAt {toks : List String} {tok : String} {value j : Json} {fields : List (String × Json)}
    (h : j.follow toks = some (.obj fields)) : ∃ j', addAt value (toks ++ [tok]) j = some j' := by
  induction toks generalizing j with
  | nil =>
    obtain rfl := Option.some.inj h
    exact ⟨_, rfl⟩
  | cons key toks ih =>
    rw [follow] at h
    obtain ⟨c, hc, h⟩ := Option.bind_eq_some_iff.mp h
    obtain ⟨c', hc'⟩ := ih h
    cases j with
    | obj fields =>
      rw [Json.get] at hc
      rw [List.cons_append, addAt_cons_obj (by simp), hc, Option.bind_some, hc']
      exact ⟨_, rfl⟩
    | _ => cases hc

/-- The other members stay. -/
theorem get_of_addAt_ne {tok key : String} (htok : IsMember tok) (hkey : key ≠ tok) {rest : List String}
    {value j j' : Json} (h : addAt value (tok :: rest) j = some j') : j'.get key = j.get key := by
  obtain ⟨fields, c', rfl, rfl, -⟩ := addAt_eq_some htok h
  exact lookup_putField_ne hkey c' fields

/-- **The frame of an `add`**: what is neither on the way of its pointer nor below it stays as it was. -/
theorem follow_of_addAt {toks : List String} (htoks : ∀ tok ∈ toks, IsMember tok) {value j j' : Json}
    (h : addAt value toks j = some j') {path : List String} (hway : ¬ path <+: toks)
    (hbelow : ¬ toks <+: path) : j'.follow path = j.follow path := by
  induction toks generalizing j j' path with
  | nil => exact absurd List.nil_prefix hbelow
  | cons tok rest ih =>
    obtain ⟨htok, hrest⟩ := List.forall_mem_cons.mp htoks
    cases path with
    | nil => exact absurd List.nil_prefix hway
    | cons key path =>
      by_cases hkey : key = tok
      · subst hkey
        rw [List.cons_prefix_cons, and_iff_right rfl] at hway hbelow
        obtain ⟨c', hc', ⟨hnil, -⟩ | ⟨-, c, hc, hadd⟩⟩ := get_of_addAt htok h
        · rw [hnil] at hbelow
          exact absurd List.nil_prefix hbelow
        · rw [follow, follow, hc', hc]
          exact ih hrest hadd hway hbelow
      · rw [follow, follow, get_of_addAt_ne htok hkey h]

/-- Operations below a member are operations on the member. -/
theorem addAll_under {key : String} {fields : List (String × Json)} {child : Json}
    (hchild : fields.lookup key = some child) {places : List (List String)}
    (hne : ∀ toks ∈ places, toks ≠ []) (value : Json) :
    addAll value (places.map (key :: ·)) (.obj fields) =
      (addAll value places child).map fun c => .obj (putField key c fields) := by
  induction places generalizing fields child with
  | nil =>
    simp only [addAll, List.map_nil, List.foldlM_nil, Option.pure_def, Option.map_some,
      putField_of_lookup hchild]
  | cons toks places ih =>
    have hrest := fun toks' h => hne toks' (List.mem_cons_of_mem _ h)
    have hstep := addAt_cons_obj (hne toks List.mem_cons_self) value key fields
    rw [hchild, Option.bind_some] at hstep
    simp only [addAll, List.map_cons, List.foldlM_cons, hstep] at ih ⊢
    cases addAt value toks child with
    | none => rfl
    | some c =>
      have := ih (lookup_putField_self key c fields) hrest
      simpa using this

theorem mapM_eq_some_map {α β : Type} {f : α → Option β} {g : α → β} {xs : List α}
    (h : ∀ x ∈ xs, f x = some (g x)) : xs.mapM f = some (xs.map g) := by
  induction xs with
  | nil => rfl
  | cons x xs ih =>
    rw [List.mapM_cons, h x List.mem_cons_self, ih fun y hy => h y (List.mem_cons_of_mem _ hy)]
    rfl

/-- Adding to every element of a list, index by index. -/
theorem addAll_elements {rest : List String} (hrest : rest ≠ []) (value : Json)
    (done todo : List Json) :
    addAll value ((List.range' done.length todo.length).map fun i => toString i :: rest)
        (.arr (done ++ todo)) =
      (todo.mapM (addAt value rest)).map fun xs => .arr (done ++ xs) := by
  -- the elements in front of the index are done, those behind it are still to do
  induction todo generalizing done with
  | nil => simp [addAll]
  | cons x todo ih =>
    have hx : (done ++ x :: todo)[done.length]? = some x := by simp
    have hstep := addAt_cons_arr hrest value done.length (done ++ x :: todo)
    rw [hx, Option.bind_some] at hstep
    simp only [addAll, List.length_cons, List.range'_succ, List.map_cons, List.foldlM_cons, hstep,
      List.mapM_cons] at ih ⊢
    cases hadd : addAt value rest x with
    | none => simp
    | some y =>
      have hset : (done ++ x :: todo).set done.length y = (done ++ [y]) ++ todo := by simp
      have := ih (done ++ [y])
      rw [List.length_append, List.length_singleton] at this
      simp only [Option.map_some, hset, Option.bind_eq_bind, Option.bind_some, this]
      cases todo.mapM (addAt value rest) <;> simp

end JsonPatch

end Picoshift
