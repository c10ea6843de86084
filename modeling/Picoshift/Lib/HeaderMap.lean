/-
# A map that groups fields by name

The `http` crate keeps header fields in a map.  A field whose name is new goes to the end, and one whose name is
there goes to the others of that name.  Listing the map therefore gives every field back, but not always in the
order in which they came: a name that comes BACK after another one is moved up to where it came first.
`iter_ofList_eq_self_iff` says when the order is kept, and it is kept in no other case.

The map has a limit too.  It depends on how many names there are and on how their hashes collide, so it is a
parameter: `full before` says that a map to which fields of the names `before` have been appended, in this order,
refuses another one.
-/
import Mathlib.Data.List.Induction
import Mathlib.Data.List.Nodup

namespace Picoshift

namespace HeaderMap

variable {α β γ : Type}

/-! ## 1. Listing groups -/

/-- The fields as the map lists them. -/
def iter (m : List (α × List β)) : List (α × β) := m.flatMap fun g => g.2.map fun v => (g.1, v)

/-- No name comes back after another one. -/
def Contiguous (names : List α) : Prop := ∀ x y, List.Sublist [x, y, x] names → x = y

theorem Contiguous.sublist {names names' : List α} (h : Contiguous names') (hsub : List.Sublist names names') :
    Contiguous names := fun x y hxy => h x y (hxy.trans hsub)

theorem iter_cons (g : α × List β) (m : List (α × List β)) :
    iter (g :: m) = g.2.map (fun v => (g.1, v)) ++ iter m := List.flatMap_cons

theorem iter_append (m m' : List (α × List β)) : iter (m ++ m') = iter m ++ iter m' := List.flatMap_append

theorem map_fst_iter_cons (g : α × List β) (m : List (α × List β)) :
    (iter (g :: m)).map Prod.fst = List.replicate g.2.length g.1 ++ (iter m).map Prod.fst := by
  rw [iter_cons, List.map_append, List.map_map]
  congr 1
  exact List.map_const'

theorem mem_keys_of_mem_iter {m : List (α × List β)} {x : α} (h : x ∈ (iter m).map Prod.fst) :
    x ∈ m.map Prod.fst := by
  obtain ⟨kv, hkv, rfl⟩ := List.mem_map.mp h
  obtain ⟨g, hg, hv⟩ := List.mem_flatMap.mp hkv
  obtain ⟨v, -, rfl⟩ := List.mem_map.mp hv
  exact List.mem_map_of_mem hg

/-- A map lists every name once, with all its fields. -/
theorem contiguous_iter {m : List (α × List β)} (h : (m.map Prod.fst).Nodup) :
    Contiguous ((iter m).map Prod.fst) := by
  induction m with
  | nil =>
    intro x y hsub
    cases hsub
  | cons g m ih =>
    rw [List.map_cons, List.nodup_cons] at h
    have hlater : g.1 ∉ (iter m).map Prod.fst := fun hmem => h.1 (mem_keys_of_mem_iter hmem)
    intro x y hsub
    rw [map_fst_iter_cons] at hsub
    obtain ⟨l₁, l₂, hsplit, hleft, hright⟩ := List.sublist_append_iff.mp hsub
    have hgroup : ∀ z ∈ l₁, z = g.1 := fun z hz => List.eq_of_mem_replicate (hleft.subset hz)
    rcases l₁ with _ | ⟨z, _ | ⟨z', l₁⟩⟩
    · exact ih h.2 x y (hsplit ▸ hright)
    · -- the first of the three is in this group and the last one is not
      obtain ⟨rfl, rfl⟩ : x = z ∧ [y, x] = l₂ := List.cons.inj hsplit
      rw [hgroup x List.mem_cons_self] at hright
      exact absurd (hright.subset (by simp)) hlater
    · obtain ⟨rfl, hrest⟩ : x = z ∧ [y, x] = z' :: (l₁ ++ l₂) := List.cons.inj hsplit
      obtain ⟨rfl, -⟩ := List.cons.inj hrest
      rw [hgroup x (by simp), hgroup y (by simp)]

/-! ## 2. The map -/

variable [DecidableEq α]

/-- Append a field: to the others of its name, or as a new group. -/
def append : List (α × List β) → α → β → List (α × List β)
  | [], k, v => [(k, [v])]
  | (k', vs) :: m, k, v => if k' = k then (k', vs ++ [v]) :: m else (k', vs) :: append m k v

/-- The map that fields give, appended one by one. -/
def ofList (kvs : List (α × β)) : List (α × List β) := kvs.foldl (fun m kv => append m kv.1 kv.2) []

theorem ofList_append_singleton (kvs : List (α × β)) (kv : α × β) :
    ofList (kvs ++ [kv]) = append (ofList kvs) kv.1 kv.2 := by
  rw [ofList, List.foldl_append, List.foldl_cons, List.foldl_nil, ofList]

theorem append_new {m : List (α × List β)} {k : α} (h : k ∉ m.map Prod.fst) (v : β) :
    append m k v = m ++ [(k, [v])] := by
  induction m with
  | nil => rfl
  | cons g m ih =>
    rw [List.map_cons, List.mem_cons, not_or] at h
    rw [append, if_neg (Ne.symm h.1), ih h.2, List.cons_append]

theorem append_mid {m : List (α × List β)} {k : α} (h : k ∉ m.map Prod.fst) (vs : List β)
    (m' : List (α × List β)) (v : β) :
    append (m ++ (k, vs) :: m') k v = m ++ (k, vs ++ [v]) :: m' := by
  induction m with
  | nil => rw [List.nil_append, append, if_pos rfl, List.nil_append]
  | cons g m ih =>
    rw [List.map_cons, List.mem_cons, not_or] at h
    rw [List.cons_append, append, if_neg (Ne.symm h.1), ih h.2, List.cons_append]

/-- What a map is like: one group a name, and none of them empty. -/
structure Ok (m : List (α × List β)) : Prop where
  nodup : (m.map Prod.fst).Nodup
  nonempty : ∀ g ∈ m, g.2 ≠ []

/-- A group with its name, and the groups on either side of it. -/
theorem exists_mid {m : List (α × List β)} {k : α} (h : k ∈ m.map Prod.fst) :
    ∃ m₁ vs m₂, m = m₁ ++ (k, vs) :: m₂ ∧ k ∉ m₁.map Prod.fst := by
  induction m with
  | nil => cases h
  | cons g m ih =>
    by_cases hg : g.1 = k
    · exact ⟨[], g.2, m, by rw [← hg]; rfl, List.not_mem_nil⟩
    · rw [List.map_cons, List.mem_cons] at h
      obtain ⟨m₁, vs, m₂, rfl, hnew⟩ := ih (h.resolve_left (Ne.symm hg))
      refine ⟨g :: m₁, vs, m₂, rfl, ?_⟩
      rw [List.map_cons, List.mem_cons, not_or]
      exact ⟨Ne.symm hg, hnew⟩

theorem Ok.append {m : List (α × List β)} (h : Ok m) (k : α) (v : β) : Ok (append m k v) := by
  by_cases hk : k ∈ m.map Prod.fst
  · obtain ⟨m₁, vs, m₂, rfl, hnew⟩ := exists_mid hk
    rw [append_mid hnew]
    refine ⟨by simpa using h.nodup, fun g hg => ?_⟩
    rcases List.mem_append.mp hg with hg | hg
    · exact h.nonempty g (List.mem_append_left _ hg)
    · rcases List.mem_cons.mp hg with rfl | hg
      · exact List.append_ne_nil_of_right_ne_nil _ (List.cons_ne_nil _ _)
      · exact h.nonempty g (List.mem_append_right _ (List.mem_cons_of_mem _ hg))
  · rw [append_new hk]
    refine ⟨?_, fun g hg => ?_⟩
    · rw [List.map_append, List.map_singleton, ← List.concat_eq_append]
      exact h.nodup.concat hk
    · rcases List.mem_append.mp hg with hg | hg
      · exact h.nonempty g hg
      · rw [List.mem_singleton.mp hg]
        exact List.cons_ne_nil _ _

theorem ok_ofList (kvs : List (α × β)) : Ok (ofList kvs) := by
  induction kvs using List.reverseRecOn with
  | nil => exact ⟨List.nodup_nil, nofun⟩
  | append_singleton kvs kv ih =>
    rw [ofList_append_singleton]
    exact ih.append kv.1 kv.2

/-! ## 3. The order -/

/-- A field goes to the end of the list, if its name is new or was the last one. -/
theorem iter_append_field {m : List (α × List β)} (h : Ok m) {k : α}
    (hnext : Contiguous ((iter m).map Prod.fst ++ [k])) (v : β) :
    iter (append m k v) = iter m ++ [(k, v)] := by
  by_cases hk : k ∈ m.map Prod.fst
  · obtain ⟨m₁, vs, m₂, rfl, hnew⟩ := exists_mid hk
    have hmid : ((k, vs) : α × List β) ∈ m₁ ++ (k, vs) :: m₂ := List.mem_append_right _ List.mem_cons_self
    have hlast : m₂ = [] := by
      cases m₂ with
      | nil => rfl
      | cons g m₂ =>
        exfalso
        obtain ⟨v₁, vs₁, hvs⟩ := List.exists_cons_of_ne_nil (h.nonempty _ hmid)
        obtain ⟨v₂, vs₂, hg⟩ := List.exists_cons_of_ne_nil (h.nonempty g (by simp))
        have hback : List.Sublist [k, g.1, k]
            ((iter (m₁ ++ (k, vs) :: g :: m₂)).map Prod.fst ++ [k]) := by
          have hpair : List.Sublist [k, g.1] ((iter ((k, vs) :: g :: m₂)).map Prod.fst) := by
            rw [map_fst_iter_cons, map_fst_iter_cons]
            have hvs : vs = v₁ :: vs₁ := hvs
            rw [hvs, hg]
            exact List.Sublist.append (List.singleton_sublist.mpr (by simp))
              (List.singleton_sublist.mpr (by simp))
          rw [iter_append, List.map_append]
          exact (hpair.trans (List.sublist_append_right _ _)).append (List.Sublist.refl [k])
        have heq := hnext _ _ hback
        have hnodup := h.nodup
        rw [List.map_append, List.map_cons, List.map_cons, List.nodup_append] at hnodup
        have hne := (List.nodup_cons.mp hnodup.2.1).1
        exact hne (heq ▸ List.mem_cons_self)
    subst hlast
    rw [append_mid hnew, iter_append, iter_append, iter_cons, iter_cons]
    simp [iter]
  · rw [append_new hk, iter_append]
    simp [iter]

/-- **A map lists the fields in the order in which they came, exactly if no name comes back.** -/
theorem iter_ofList_eq_self_iff (kvs : List (α × β)) :
    iter (ofList kvs) = kvs ↔ Contiguous (kvs.map Prod.fst) := by
  constructor
  · intro h
    rw [← h]
    exact contiguous_iter (ok_ofList kvs).nodup
  · intro h
    induction kvs using List.reverseRecOn with
    | nil => rfl
    | append_singleton kvs kv ih =>
      rw [List.map_append, List.map_singleton] at h
      have hbefore := ih (h.sublist (List.sublist_append_left _ _))
      have hnext : Contiguous ((iter (ofList kvs)).map Prod.fst ++ [kv.1]) := by rwa [hbefore]
      rw [ofList_append_singleton, iter_append_field (ok_ofList kvs) hnext, hbefore]

/-! ## 4. Values -/

section Values

variable (f : β → γ)

theorem append_map (m : List (α × List β)) (k : α) (v : β) :
    append (m.map fun g => (g.1, g.2.map f)) k (f v) = (append m k v).map fun g => (g.1, g.2.map f) := by
  induction m with
  | nil => rfl
  | cons g m ih =>
    rw [List.map_cons, append, append]
    split
    · simp
    · rw [ih, List.map_cons]

theorem ofList_map (kvs : List (α × β)) :
    ofList (kvs.map fun kv => (kv.1, f kv.2)) = (ofList kvs).map fun g => (g.1, g.2.map f) := by
  induction kvs using List.reverseRecOn with
  | nil => rfl
  | append_singleton kvs kv ih =>
    rw [List.map_append, List.map_singleton, ofList_append_singleton, ih, append_map, ofList_append_singleton]

/-- Where a field is listed does not depend on the values. -/
theorem iter_ofList_map (kvs : List (α × β)) :
    iter (ofList (kvs.map fun kv => (kv.1, f kv.2))) = (iter (ofList kvs)).map fun kv => (kv.1, f kv.2) := by
  rw [ofList_map, iter, iter, List.flatMap_map, List.map_flatMap]
  simp only [List.map_map]
  rfl

end Values

/-! ## 5. The limit -/

/-- Fields of these names can be appended one by one, after those of the names `before`. -/
def fits (full : List α → Bool) : (before names : List α) → Bool
  | _, [] => true
  | before, n :: names => !full before && fits full (before ++ [n]) names

end HeaderMap

end Picoshift
