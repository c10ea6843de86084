/-
# UID ranges: the namespace controller and the pod webhook

A namespace has a block of 10000 UIDs.  Two pieces of code know which.  The controller WRITES the
block into two annotations of the namespace, and leaves a namespace alone that has the first of them.
The webhook puts an `fsGroup` into pods that must not run as root, and COMPUTES the block from the
name of the namespace: it never reads an annotation.

The two agree on every namespace that the controller annotated itself.  A namespace that came with a
uid-range annotation keeps it, whatever it says, and is not given the other annotation either
(`scc_range_iff`).

The hash of a name is the standard library's (`DefaultHasher`), whose algorithm is not specified, and
an annotation is read by others; both are parameters here.
-/
import Picoshift.Lib.JsonPatch
import Picoshift.Lib.Map

namespace Picoshift.PodMutate

open Json JsonPatch

/-! ## 1. The block of a namespace -/

/-- `UID_RANGE_ANNOTATION`. -/
def uidRangeAnnotationName : String := "openshift.io/sa.scc.uid-range"

/-- `SUPPLEMENTAL_GROUPS_ANNOTATION`. -/
def supplementalGroupsAnnotationName : String := "openshift.io/sa.scc.supplemental-groups"

/-- `SKIP_NAMESPACES`. -/
def skipNamespaces : List String :=
  ["kube-system", "kube-public", "kube-node-lease", "ocp-sim", "local-path-storage"]

/-- `uid_range_for_namespace`: the first UID of the block. -/
def uidRangeForNamespace (hash : String → UInt64) (name : String) : Nat :=
  let block := (hash name).toNat % 100000
  1000000000 + block * 10000

/-- How a block is written: its first UID and its size. -/
def rangeText (start size : Nat) : String := toString start ++ "/" ++ toString size

/-- A reader of blocks that understands what the controller writes. -/
def ReadsBlocks (readBlock : String → Option (Nat × Nat)) : Prop :=
  ∀ start size, readBlock (rangeText start size) = some (start, size)

/-- The UID lies in the block that the text describes. -/
def InBlock (readBlock : String → Option (Nat × Nat)) (text : String) (uid : Int) : Prop :=
  ∃ start size, readBlock text = some (start, size) ∧ (start : Int) ≤ uid ∧ uid < start + size

/-! ## 2. The webhook -/

/-- `run_as_non_root_container`. -/
def runAsNonRootContainer (spec : Json) : Bool :=
  (((spec.get "containers").bind asArray).map fun containers => containers.any fun c =>
    (((c.get "securityContext").bind (·.get "runAsNonRoot")).bind asBool).getD false).getD false

/-- `compute_patch`. -/
def computePatch (hash : String → UInt64) (pod : Json) (ns : String) : Option (List Json) :=
  (pod.get "spec").bind fun spec =>
  let sc := spec.get "securityContext"
  if (sc.bind (·.get "fsGroup")).isSome then none
  else
  let runAsNonRootPod := ((sc.bind (·.get "runAsNonRoot")).bind asBool).getD false
  if !runAsNonRootPod && !runAsNonRootContainer spec then none
  else
  let uid := Json.num (uidRangeForNamespace hash ns)
  if sc.isSome then some [addOp "/spec/securityContext/fsGroup" uid]
  else some [addOp "/spec/securityContext" (.obj [("fsGroup", uid)])]

/-- The `fsGroup` of a pod. -/
def fsGroup (pod : Json) : Option Json :=
  ((pod.get "spec").bind (·.get "securityContext")).bind (·.get "fsGroup")

/-- A pod that the webhook has patched. -/
def Patched (hash : String → UInt64) (ns : String) (pod patched : Json) : Prop :=
  ∃ ops, computePatch hash pod ns = some ops ∧ JsonPatch.apply ops pod = some patched

/-! ## 3. The controller -/

/-- A Namespace, as far as the controller reads it. -/
structure Namespace where
  name : String
  annotations : Map String String

/-- What the controller is told to do after a call: wait for a change, or try again. -/
inductive Action where
  | awaitChange
  | requeue (seconds : Nat)
  deriving DecidableEq, Repr

/-- `error_policy_ns`. -/
def errorPolicyNs : Action := .requeue 10

/-- The merge patch of `reconcile_namespace`. -/
def Namespace.annotate (ns : Namespace) (range : String) : Namespace :=
  { ns with
    annotations := (ns.annotations.insert uidRangeAnnotationName range).insert
      supplementalGroupsAnnotationName range }

/-- `reconcile_namespace`: the namespace afterwards, and the action. -/
def reconcileNamespace (hash : String → UInt64) (ns : Namespace) (patchOk : Bool) :
    Namespace × Action :=
  if skipNamespaces.contains ns.name then (ns, .awaitChange)
  else if (ns.annotations.get uidRangeAnnotationName).isSome then (ns, .awaitChange)
  else if patchOk = false then (ns, errorPolicyNs)
  else (ns.annotate (rangeText (uidRangeForNamespace hash ns.name) 10000), .awaitChange)

/-! ## 4. What is injected -/

/-- The tokens of the two pointers in use. -/
theorem tokens_fsGroup :
    tokens "/spec/securityContext/fsGroup" = some ["spec", "securityContext", "fsGroup"] ∧
      tokens "/spec/securityContext" = some ["spec", "securityContext"] := by
  decide +kernel

theorem isMember_spec : IsMember "spec" := by decide +kernel

theorem isMember_securityContext : IsMember "securityContext" := by decide +kernel

theorem isMember_fsGroup : IsMember "fsGroup" := by decide +kernel

/-- A patch of one operation. -/
theorem apply_singleton {path : String} {toks : List String} (h : tokens path = some toks)
    (value j : Json) : JsonPatch.apply [addOp path value] j = addAt value toks j := by
  rw [JsonPatch.apply, List.foldlM_cons, applyOp_addOp h]
  cases addAt value toks j <;> rfl

/-- The patch is one of two operations with the first UID of the block: for a member of the security
context that is there, or for a whole one. -/
theorem computePatch_eq_some {hash : String → UInt64} {pod : Json} {ns : String} {ops : List Json}
    (h : computePatch hash pod ns = some ops) : ∃ spec, pod.get "spec" = some spec ∧
      ((∃ sc, spec.get "securityContext" = some sc ∧
          ops = [addOp "/spec/securityContext/fsGroup" (.num (uidRangeForNamespace hash ns))]) ∨
        spec.get "securityContext" = none ∧ ops = [addOp "/spec/securityContext"
          (.obj [("fsGroup", .num (uidRangeForNamespace hash ns))])]) := by
  rw [computePatch] at h
  obtain ⟨spec, hspec, h⟩ := Option.bind_eq_some_iff.mp h
  refine ⟨spec, hspec, ?_⟩
  simp only at h
  split at h
  · cases h
  split at h
  · cases h
  split at h
  · rename_i hsc
    obtain ⟨sc, hsc⟩ := Option.isSome_iff_exists.mp hsc
    exact Or.inl ⟨sc, hsc, (Option.some.inj h).symm⟩
  · rename_i hsc
    exact Or.inr ⟨Option.not_isSome_iff_eq_none.mp hsc, (Option.some.inj h).symm⟩

/-- **What the webhook injects**: the first UID of the block, whatever the pod. -/
theorem fsGroup_of_patched {hash : String → UInt64} {ns : String} {pod patched : Json}
    (h : Patched hash ns pod patched) :
    fsGroup patched = some (.num (uidRangeForNamespace hash ns)) := by
  obtain ⟨ops, hops, happly⟩ := h
  obtain ⟨-, -, ⟨-, -, rfl⟩ | ⟨-, rfl⟩⟩ := computePatch_eq_some hops
  · rw [apply_singleton tokens_fsGroup.1] at happly
    obtain ⟨spec', hspec, ⟨hnil, -⟩ | ⟨-, spec, -, hrest⟩⟩ := get_of_addAt isMember_spec happly
    · cases hnil
    obtain ⟨sc', hsc, ⟨hnil, -⟩ | ⟨-, sc, -, hlast⟩⟩ := get_of_addAt isMember_securityContext hrest
    · cases hnil
    obtain ⟨group, hgroup, ⟨-, rfl⟩ | ⟨hne, -⟩⟩ := get_of_addAt isMember_fsGroup hlast
    · simp [fsGroup, hspec, hsc, hgroup]
    · exact absurd rfl hne
  · rw [apply_singleton tokens_fsGroup.2] at happly
    obtain ⟨spec', hspec, ⟨hnil, -⟩ | ⟨-, spec, -, hrest⟩⟩ := get_of_addAt isMember_spec happly
    · cases hnil
    obtain ⟨sc', hsc, ⟨-, rfl⟩ | ⟨hne, -⟩⟩ := get_of_addAt isMember_securityContext hrest
    · rw [fsGroup, hspec, Option.bind_some, hsc]
      rfl
    · exact absurd rfl hne

/-- A pod that must not run as root. -/
def nonRootPod : Json := .obj [("spec", .obj [("securityContext",
  .obj [("runAsNonRoot", .bool true)])])]

/-- Some pod is patched in every namespace. -/
theorem exists_patched (hash : String → UInt64) (ns : String) : ∃ patched,
    Patched hash ns nonRootPod patched := by
  have hops : computePatch hash nonRootPod ns =
      some [addOp "/spec/securityContext/fsGroup" (.num (uidRangeForNamespace hash ns))] := by
    simp [computePatch, nonRootPod, Json.get, List.lookup_cons, asBool]
  refine ⟨.obj [("spec", .obj [("securityContext", .obj [("runAsNonRoot", .bool true),
    ("fsGroup", .num (uidRangeForNamespace hash ns))])])], _, hops, ?_⟩
  rw [apply_singleton tokens_fsGroup.1]
  simp [nonRootPod, addAt, putField]

/-! ## 5. The condition -/

/-- The namespace has both annotations, and what the webhook injects into its pods lies in the block
that the first of them describes. -/
structure Consistent (hash : String → UInt64) (readBlock : String → Option (Nat × Nat))
    (ns : Namespace) : Prop where
  uidRange : (ns.annotations.get uidRangeAnnotationName).isSome
  supplementalGroups : (ns.annotations.get supplementalGroupsAnnotationName).isSome
  inside : ∀ pod patched, Patched hash ns.name pod patched →
    ∃ text uid, ns.annotations.get uidRangeAnnotationName = some text ∧
      fsGroup patched = some (.num uid) ∧ InBlock readBlock text uid

/-- The namespace came without the first annotation, or with both and with a block that has the UID
of its name. -/
def CameInOrder (hash : String → UInt64) (readBlock : String → Option (Nat × Nat))
    (ns : Namespace) : Prop :=
  ∀ text, ns.annotations.get uidRangeAnnotationName = some text →
    (ns.annotations.get supplementalGroupsAnnotationName).isSome ∧
      InBlock readBlock text (uidRangeForNamespace hash ns.name)

/-- The range that is written can be looked up. -/
theorem get_annotate (ns : Namespace) (range : String) :
    (ns.annotate range).annotations.get uidRangeAnnotationName = some range := by
  have hne : uidRangeAnnotationName ≠ supplementalGroupsAnnotationName := by decide
  exact (Map.get_insert_ne _ hne).trans (Map.get_insert_self _ _ _)

/-- A namespace that the controller annotates itself is consistent. -/
theorem consistent_annotate (hash : String → UInt64) {readBlock : String → Option (Nat × Nat)}
    (hread : ReadsBlocks readBlock) (ns : Namespace) :
    Consistent hash readBlock
      (ns.annotate (rangeText (uidRangeForNamespace hash ns.name) 10000)) := by
  have huid := get_annotate ns (rangeText (uidRangeForNamespace hash ns.name) 10000)
  refine ⟨Option.isSome_of_eq_some huid, Option.isSome_of_eq_some (Map.get_insert_self _ _ _),
    fun pod patched hpatched => ⟨_, _, huid, fsGroup_of_patched hpatched, ?_⟩⟩
  exact ⟨_, _, hread _ _, Int.le_refl _, Int.lt_add_of_pos_right _ (by decide)⟩

/-- A namespace that has the first annotation is judged by what it has. -/
theorem consistent_iff_of_annotated {hash : String → UInt64}
    {readBlock : String → Option (Nat × Nat)} {ns : Namespace} {text : String}
    (hget : ns.annotations.get uidRangeAnnotationName = some text) :
    Consistent hash readBlock ns ↔
      (ns.annotations.get supplementalGroupsAnnotationName).isSome ∧
        InBlock readBlock text (uidRangeForNamespace hash ns.name) := by
  constructor
  · intro hconsistent
    obtain ⟨patched, hpatched⟩ := exists_patched hash ns.name
    obtain ⟨text', uid, htext', huid, hin⟩ := hconsistent.inside _ _ hpatched
    obtain rfl : text = text' := Option.some.inj (hget.symm.trans htext')
    rw [fsGroup_of_patched hpatched, Option.some.injEq, Json.num.injEq] at huid
    exact ⟨hconsistent.supplementalGroups, huid ▸ hin⟩
  · rintro ⟨hgroups, hin⟩
    exact ⟨Option.isSome_of_eq_some hget, hgroups, fun pod patched hpatched =>
      ⟨text, _, hget, fsGroup_of_patched hpatched, hin⟩⟩

theorem reconcileNamespace_of_annotated {hash : String → UInt64} {ns : Namespace} {text : String}
    (hget : ns.annotations.get uidRangeAnnotationName = some text) (patchOk : Bool) :
    reconcileNamespace hash ns patchOk = (ns, .awaitChange) := by
  simp [reconcileNamespace, hget]

theorem reconcileNamespace_of_bare (hash : String → UInt64) {ns : Namespace}
    (hskip : ns.name ∉ skipNamespaces) (hget : ns.annotations.get uidRangeAnnotationName = none) :
    reconcileNamespace hash ns true =
      (ns.annotate (rangeText (uidRangeForNamespace hash ns.name) 10000), .awaitChange) := by
  simp [reconcileNamespace, hget, hskip]

/-- **The exact condition.**  A namespace that the controller has processed has both annotations and
its pods get an `fsGroup` inside the annotated range, exactly when it came in order. -/
theorem scc_range_iff (hash : String → UInt64) {readBlock : String → Option (Nat × Nat)}
    (hread : ReadsBlocks readBlock) (ns : Namespace) (hskip : ns.name ∉ skipNamespaces) :
    Consistent hash readBlock (reconcileNamespace hash ns true).1 ↔
      CameInOrder hash readBlock ns := by
  cases hget : ns.annotations.get uidRangeAnnotationName with
  | none =>
    rw [reconcileNamespace_of_bare hash hskip hget]
    exact iff_of_true (consistent_annotate hash hread ns)
      fun text h => absurd (hget.symm.trans h) (by simp)
  | some text =>
    rw [reconcileNamespace_of_annotated hget, consistent_iff_of_annotated hget]
    constructor
    · rintro horder text' htext'
      obtain rfl : text = text' := Option.some.inj (hget.symm.trans htext')
      exact horder
    · exact fun horder => horder text hget

/-- A reader of `start/size`. -/
def readSlashBlock (text : String) : Option (Nat × Nat) :=
  (Str.splitOnce text '/').bind fun (a, b) =>
    (Str.digitsL a.toList).bind fun start => (Str.digitsL b.toList).map fun size => (start, size)

theorem readsBlocks_readSlashBlock : ReadsBlocks readSlashBlock := by
  intro start size
  have hslash : '/' ∉ (toString start).toList := by
    rw [Str.toList_toString]
    exact Str.not_mem_toDigits (by decide) start
  have hsplit : Str.splitOnce (rangeText start size) '/' = some (toString start, toString size) :=
    Str.splitOnce_append hslash (toString size)
  rw [readSlashBlock, hsplit, Option.bind_some]
  simp only [Str.toList_toString, Str.digitsL_toDigits, Option.bind_some, Option.map_some]

/-- The condition at a namespace without annotations. -/
theorem scc_range_iff_bare :
    Consistent (fun _ => 0) readSlashBlock
        (reconcileNamespace (fun _ => 0) ⟨"demo", Map.empty⟩ true).1 ↔
      CameInOrder (fun _ => 0) readSlashBlock ⟨"demo", Map.empty⟩ :=
  scc_range_iff (fun _ => 0) readsBlocks_readSlashBlock ⟨"demo", Map.empty⟩ (by decide +kernel)

/-- Namespaces that came with a uid range of their own: one without supplemental groups, which it is
never given, and one whose range does not have the injected `fsGroup`, whatever the hash. -/
theorem scc_range_foreign :
    (¬ ∃ hash, Consistent hash readSlashBlock (reconcileNamespace hash
      ⟨"demo", Map.ofPairs [(uidRangeAnnotationName, "1000/10000")]⟩ true).1) ∧
    ¬ ∃ hash, Consistent hash readSlashBlock (reconcileNamespace hash
      ⟨"demo", Map.ofPairs [(supplementalGroupsAnnotationName, "1000/10000"),
        (uidRangeAnnotationName, "1000/10000")]⟩ true).1 := by
  constructor
  · rintro ⟨hash, h⟩
    rw [reconcileNamespace_of_annotated (Map.get_insert_self _ _ _)] at h
    exact absurd h.supplementalGroups (by decide +kernel)
  · rintro ⟨hash, h⟩
    rw [reconcileNamespace_of_annotated (Map.get_insert_self _ _ _),
      consistent_iff_of_annotated (Map.get_insert_self _ _ _)] at h
    obtain ⟨-, start, size, hblock, -, hlt⟩ := h
    have hread : readSlashBlock "1000/10000" = some (1000, 10000) := by decide +kernel
    rw [hread, Option.some.injEq, Prod.mk.injEq] at hblock
    obtain ⟨rfl, rfl⟩ := hblock
    simp only [uidRangeForNamespace] at hlt
    omega

end Picoshift.PodMutate
