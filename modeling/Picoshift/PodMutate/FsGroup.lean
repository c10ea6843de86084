/-
# What the webhook does to a pod

`compute_patch` answers a pod with no patch, or with one `add` whose pointer depends on what is there: below
the pod's `securityContext` where it has one, and otherwise for a `securityContext` of its own.  The API server
decodes the patch out of the admission review and carries it out.

For a pod as the API server writes it, with objects where objects belong, the patch always applies, sets the
one member, and leaves everything that is not on the way to it as it was.  It is given exactly when there is no
`fsGroup` yet and the pod or one of its containers must not run as root, so a pod that was patched is not
patched again (`patch_right`).
-/
import Picoshift.Lib.Base64
import Picoshift.Lib.JsonText
import Picoshift.PodMutate.Scc

namespace Picoshift.PodMutate

open Json JsonPatch

/-! ## 1. The admission review -/

/-- `build_admission_response`. -/
def buildAdmissionResponse (uid : String) (patch : Option (List Json)) : Json :=
  let response := Json.obj [("uid", .str uid), ("allowed", .bool true)]
  let response := match patch with
    | none => response
    | some ops => (response.set "patchType" (.str "JSONPatch")).set "patch"
        (.str (Base64.encode Base64.standard (Utf8.encode (String.ofList (text (.arr ops))))))
  .obj [("apiVersion", .str "admission.k8s.io/v1"), ("kind", .str "AdmissionReview"), ("response", response)]

/-- The patch that the API server finds in a review. -/
def reviewPatch (review : Json) : Option (List Json) := do
  let response ← review.get "response"
  let patchType ← (← response.get "patchType").asStr
  if patchType ≠ "JSONPatch" then none
  let patch ← (← response.get "patch").asStr
  (← fromSlice (← Base64.decode Base64.standard patch)).asArray

/-- The operations of the webhook can be written as JSON text. -/
theorem plain_computePatch {hash : String → UInt64} {pod : Json} {ns : String} {ops : List Json}
    (h : computePatch hash pod ns = some ops) : plain (.arr ops) = true := by
  obtain ⟨-, -, ⟨-, -, rfl⟩ | ⟨-, rfl⟩⟩ := computePatch_eq_some h
  · simp [plain, plainElems, plainFields, addOp]
  · simp [plain, plainElems, plainFields, addOp]

/-- **The API server receives the operations that were computed.** -/
theorem reviewPatch_computePatch (hash : String → UInt64) (pod : Json) (ns uid : String) :
    reviewPatch (buildAdmissionResponse uid (computePatch hash pod ns)) = computePatch hash pod ns := by
  cases h : computePatch hash pod ns with
  | none => simp [reviewPatch, buildAdmissionResponse, Json.get, List.lookup_cons]
  | some ops =>
    have hread := fromSlice_text (plain_computePatch h)
    simp [reviewPatch, buildAdmissionResponse, Json.get, Json.set, List.lookup_cons, asStr, hread, asArray]

/-! ## 2. When a pod is patched -/

/-- The value has a `securityContext` that forbids to run as root. -/
def NonRoot (j : Json) : Prop := j.follow ["securityContext", "runAsNonRoot"] = some (.bool true)

/-- The pod itself or one of its containers must not run as root. -/
def MustNotBeRoot (pod : Json) : Prop :=
  ∃ spec, pod.get "spec" = some spec ∧
    (NonRoot spec ∨ ∃ containers, spec.get "containers" = some (.arr containers) ∧ ∃ c ∈ containers, NonRoot c)

theorem nonRoot_iff (j : Json) : NonRoot j ↔
    (((j.get "securityContext").bind (·.get "runAsNonRoot")).bind asBool).getD false = true := by
  rw [NonRoot, follow]
  simp only [follow]
  cases (j.get "securityContext") with
  | none => simp
  | some sc =>
    cases hroot : sc.get "runAsNonRoot" with
    | none => simp [hroot]
    | some v => cases v <;> simp [hroot, asBool]

theorem runAsNonRootContainer_iff (spec : Json) : runAsNonRootContainer spec = true ↔
    ∃ containers, spec.get "containers" = some (.arr containers) ∧ ∃ c ∈ containers, NonRoot c := by
  rw [runAsNonRootContainer]
  cases spec.get "containers" with
  | none => simp
  | some v => cases v <;> simp [asArray, nonRoot_iff]

/-- A patch is computed exactly for a pod without an `fsGroup` that must not run as root. -/
theorem isSome_computePatch_iff (hash : String → UInt64) (pod : Json) (ns : String) :
    (computePatch hash pod ns).isSome ↔ fsGroup pod = none ∧ MustNotBeRoot pod := by
  rw [computePatch, fsGroup, MustNotBeRoot]
  cases pod.get "spec" with
  | none => simp
  | some spec =>
    simp only [Option.bind_some, Option.some.injEq, exists_eq_left']
    rw [← runAsNonRootContainer_iff, nonRoot_iff]
    split
    · rename_i hgroup
      exact iff_of_false (by simp) fun h => by simp [h.1] at hgroup
    · rename_i hgroup
      rw [Option.not_isSome_iff_eq_none] at hgroup
      rw [and_iff_right hgroup]
      split
      · rename_i hroot
        simpa using hroot
      · rename_i hroot
        have hroot : (((spec.get "securityContext").bind (·.get "runAsNonRoot")).bind asBool).getD false = true ∨
            runAsNonRootContainer spec = true := by
          simpa [or_iff_not_imp_left] using hroot
        refine iff_of_true ?_ hroot
        split <;> rfl

/-! ## 3. What the patch does -/

/-- The way to the member that is set. -/
def fsGroupPath : List String := ["spec", "securityContext", "fsGroup"]

/-- The patch can be carried out, sets the member to the first UID of the namespace's block, and changes
nothing that is neither on the way to it nor below it; and there is no second patch. -/
def PatchesRight (hash : String → UInt64) (ns : String) (ops : List Json) (pod : Json) : Prop :=
  ∃ patched, JsonPatch.apply ops pod = some patched ∧
    fsGroup patched = some (.num (uidRangeForNamespace hash ns)) ∧
    (∀ path, ¬ path <+: fsGroupPath → ¬ fsGroupPath <+: path → patched.follow path = pod.follow path) ∧
    computePatch hash patched ns = none

/-- A pod as the API server writes it: its spec is an object, and its security context, if any. -/
structure WellShaped (pod : Json) : Prop where
  spec : ∃ fields, pod.get "spec" = some (.obj fields)
  securityContext : ∀ sc, pod.follow ["spec", "securityContext"] = some sc → ∃ fields, sc = .obj fields

section Patch

variable {hash : String → UInt64} {ns : String} {pod : Json} {ops : List Json}

/-- The patch can be carried out. -/
theorem exists_apply_computePatch (hshape : WellShaped pod) (hops : computePatch hash pod ns = some ops) :
    ∃ patched, JsonPatch.apply ops pod = some patched := by
  obtain ⟨fields, hfields⟩ := hshape.spec
  obtain ⟨spec, hspec, ⟨sc, hsc, rfl⟩ | ⟨-, rfl⟩⟩ := computePatch_eq_some hops
  · have hfollow : pod.follow ["spec", "securityContext"] = some sc := by
      simp [follow, hspec, hsc]
    obtain ⟨scFields, rfl⟩ := hshape.securityContext sc hfollow
    rw [apply_singleton tokens_fsGroup.1]
    exact exists_addAt hfollow
  · have hfollow : pod.follow ["spec"] = some (.obj fields) := by
      simp [follow, hfields]
    rw [apply_singleton tokens_fsGroup.2]
    exact exists_addAt hfollow

theorem isMember_fsGroupPath : ∀ tok ∈ fsGroupPath, IsMember tok := by
  rw [fsGroupPath]
  simp [isMember_spec, isMember_securityContext, isMember_fsGroup]

/-- A path that is off the way passes the security context by, or goes to another member of it. -/
theorem off_way {path : List String} (hway : ¬ path <+: fsGroupPath) (hbelow : ¬ fsGroupPath <+: path) :
    ¬ ["spec", "securityContext"] <+: path ∨
      ∃ key rest, key ≠ "fsGroup" ∧ path = "spec" :: "securityContext" :: key :: rest := by
  by_cases hsc : ["spec", "securityContext"] <+: path
  · obtain ⟨rest, rfl⟩ := hsc
    cases rest with
    | nil => exact absurd ⟨["fsGroup"], rfl⟩ hway
    | cons key rest =>
      refine Or.inr ⟨key, rest, ?_, rfl⟩
      rintro rfl
      exact hbelow ⟨rest, rfl⟩
  · exact Or.inl hsc

/-- What is off the way stays. -/
theorem follow_of_patched {patched : Json} (hops : computePatch hash pod ns = some ops)
    (happly : JsonPatch.apply ops pod = some patched) {path : List String}
    (hway : ¬ path <+: fsGroupPath) (hbelow : ¬ fsGroupPath <+: path) :
    patched.follow path = pod.follow path := by
  obtain ⟨spec, hspec, ⟨sc, -, rfl⟩ | ⟨hsc, rfl⟩⟩ := computePatch_eq_some hops
  · rw [apply_singleton tokens_fsGroup.1] at happly
    exact follow_of_addAt isMember_fsGroupPath happly hway hbelow
  · rw [apply_singleton tokens_fsGroup.2] at happly
    rcases off_way hway hbelow with hpast | ⟨key, rest, hkey, rfl⟩
    · refine follow_of_addAt (fun tok htok => ?_) happly (fun hpre => ?_) hpast
      · exact isMember_fsGroupPath tok (List.mem_append_left ["fsGroup"] htok)
      · exact hway (hpre.trans ⟨["fsGroup"], rfl⟩)
    · -- there was no security context, and the new one has no other member
      obtain ⟨spec', hspec', ⟨hnil, -⟩ | ⟨-, spec₀, -, hrest⟩⟩ := get_of_addAt isMember_spec happly
      · cases hnil
      obtain ⟨sc', hsc', ⟨-, rfl⟩ | ⟨hne, -⟩⟩ := get_of_addAt isMember_securityContext hrest
      · have hother : Json.get (.obj [("fsGroup", .num (uidRangeForNamespace hash ns))]) key = none := by
          rw [Json.get, lookup_cons_ite, if_neg hkey.symm]
          rfl
        simp [follow, hspec, hsc, hspec', hsc', hother]
      · exact absurd rfl hne

end Patch

/-- **What the webhook does to a pod.**  A patch that is computed can be carried out, sets `fsGroup` to the
first UID of the namespace and nothing else, and is not computed twice; and it is computed exactly for a pod
without an `fsGroup` that must not run as root. -/
theorem patch_right (hash : String → UInt64) (pod : Json) (hshape : WellShaped pod) (ns : String) :
    (∀ ops, computePatch hash pod ns = some ops → PatchesRight hash ns ops pod) ∧
      ((computePatch hash pod ns).isSome ↔ fsGroup pod = none ∧ MustNotBeRoot pod) := by
  refine ⟨fun ops hops => ?_, isSome_computePatch_iff hash pod ns⟩
  obtain ⟨patched, happly⟩ := exists_apply_computePatch hshape hops
  have hgroup := fsGroup_of_patched ⟨ops, hops, happly⟩
  refine ⟨patched, happly, hgroup, fun path => follow_of_patched hops happly, ?_⟩
  rw [← Option.not_isSome_iff_eq_none, isSome_computePatch_iff, hgroup]
  exact fun h => Option.some_ne_none _ h.1

/-- A pod whose only container must not run as root. -/
def containerPod : Json := .obj [("kind", .str "Pod"), ("spec", .obj [("containers", .arr
  [.obj [("name", .str "app"), ("securityContext", .obj [("runAsNonRoot", .bool true)])]])])]

theorem patch_right_containerPod : WellShaped containerPod ∧
    (computePatch (fun _ => 7) containerPod "demo").isSome ∧
    ∀ ops, computePatch (fun _ => 7) containerPod "demo" = some ops →
      PatchesRight (fun _ => 7) "demo" ops containerPod := by
  have hshape : WellShaped containerPod := by
    constructor
    · exact ⟨_, rfl⟩
    · intro sc hsc
      simp [containerPod, follow, Json.get, List.lookup_cons] at hsc
  have hright := patch_right (fun _ => 7) containerPod hshape "demo"
  refine ⟨hshape, hright.2.mpr ⟨rfl, _, rfl, Or.inr ⟨_, rfl, _, List.mem_cons_self, rfl⟩⟩, hright.1⟩

end Picoshift.PodMutate
