/-
# The service CA: webhook configurations

A webhook configuration that asks for it gets the CA certificate as the `caBundle` of each of its
webhooks.  `reconcile_mutating_webhook` and `reconcile_validating_webhook` are the same function for
two kinds of object.  It decides that there is nothing to do by looking at the FIRST webhook of the
list, and what it then does, one `add` for each webhook, is about ALL of them.

So a webhook behind an up-to-date first one is never looked at: one that was appended later, or one
whose bundle was edited, stays as it is (`webhook_bundles_iff`).  The patch itself is exact: it gives
every webhook the CA and leaves every other member of the object alone (`injected_setBundles`).
-/
import Picoshift.Lib.JsonPatch
import Picoshift.ServiceCa.Reconcile

namespace Picoshift.ServiceCa

open Json JsonPatch

/-! ## 1. The objects -/

/-- The two kinds of webhook configuration. -/
inductive WebhookKind where
  | mutating
  | validating
  deriving DecidableEq, Repr

/-- What identifies a webhook configuration, which has no namespace. -/
abbrev WebhookKey := WebhookKind × String

/-- `obj.webhooks`. -/
def webhooks (object : Json) : Option (List Json) := (object.get "webhooks").bind asArray

/-- `wh.client_config.ca_bundle`: bytes, written in base64. -/
def caBundle (wh : Json) : Option (List UInt8) :=
  (((wh.get "clientConfig").bind (·.get "caBundle")).bind asStr).bind
    (Base64.decode Base64.standard)

/-- A webhook configuration: every webhook says how it is reached. -/
structure WebhookConfiguration where
  object : Json
  clientConfigs : ∀ whs, webhooks object = some whs → ∀ wh ∈ whs,
    ∃ fields, wh.get "clientConfig" = some (.obj fields)

/-- `obj.name_any()`. -/
def nameAny (object : Json) : String :=
  let metadata := object.get "metadata"
  ((metadata.bind (·.get "name")).bind asStr).getD
    (((metadata.bind (·.get "generateName")).bind asStr).getD "")

/-- `needs_cabundle_injection`. -/
def needsCabundleInjection (object : Json) : Bool :=
  (((object.get "metadata").bind (·.get "annotations")).bind
    (·.get injectCabundleAnnotationName)).bind asStr == some "true"

/-! ## 2. The reconcilers -/

/-- `expected_ca`. -/
def expectedCa (ca : CaState) : List UInt8 := Utf8.encode ca.caCertPem

/-- `existing_bundle`: that of the first webhook. -/
def existingBundle (object : Json) : Option (List UInt8) :=
  ((webhooks object).bind List.head?).bind caBundle

/-- The pointer to the bundle of the `i`-th webhook. -/
def bundlePath (i : Nat) : String := "/webhooks/" ++ toString i ++ "/clientConfig/caBundle"

/-- `json_patch`. -/
def jsonPatch (ca : CaState) (object : Json) : List Json :=
  (List.range ((webhooks object).getD []).length).map fun i =>
    addOp (bundlePath i) (.str (caBundleBase64 ca))

/-- The body that the two reconcilers share: `cfg` is the object as the controller received it,
`patchOk` whether the API server takes the patch, `store` what the API server holds. -/
def reconcileWebhook (kind : WebhookKind) (ca : CaState) (cfg : WebhookConfiguration)
    (patchOk : Bool) (store : Map WebhookKey Json) : Map WebhookKey Json × Action :=
  let key := (kind, nameAny cfg.object)
  if needsCabundleInjection cfg.object = false then (store, .awaitChange)
  else if existingBundle cfg.object = some (expectedCa ca) then (store, .awaitChange)
  else if patchOk = false then (store, errorPolicy)
  else
  match (store.get key).bind (JsonPatch.apply (jsonPatch ca cfg.object)) with
  | none => (store, errorPolicy)
  | some patched => (store.insert key patched, .awaitChange)

/-- `reconcile_mutating_webhook`. -/
def reconcileMutatingWebhook := reconcileWebhook .mutating

/-- `reconcile_validating_webhook`. -/
def reconcileValidatingWebhook := reconcileWebhook .validating

/-- The reconciler of each kind. -/
def webhookReconciler : WebhookKind → CaState → WebhookConfiguration → Bool →
    Map WebhookKey Json → Map WebhookKey Json × Action
  | .mutating => reconcileMutatingWebhook
  | .validating => reconcileValidatingWebhook

theorem webhookReconciler_eq (kind : WebhookKind) : webhookReconciler kind = reconcileWebhook kind := by
  cases kind <;> rfl

/-! ## 3. What the patch does -/

/-- A webhook with `value` for its bundle. -/
def setBundle (value : Json) (wh : Json) : Json :=
  wh.update "clientConfig" fun
    | .obj fields => .obj (putField "caBundle" value fields)
    | j => j

/-- A webhook without its bundle. -/
def dropBundle (wh : Json) : Json := wh.update "clientConfig" (remove "caBundle")

/-- The object without the bundles of its webhooks. -/
def withoutBundles (object : Json) : Json :=
  object.update "webhooks" fun
    | .arr whs => .arr (whs.map dropBundle)
    | j => j

/-- Every webhook of `after` has the CA for its bundle, and `after` is `before` in all else. -/
structure Injected (ca : CaState) (before after : Json) : Prop where
  bundles : ∀ whs, webhooks after = some whs → ∀ wh ∈ whs, caBundle wh = some (expectedCa ca)
  rest : withoutBundles after = withoutBundles before

theorem tokens_bundlePath (i : Nat) :
    tokens (bundlePath i) = some ["webhooks", toString i, "clientConfig", "caBundle"] := by
  have hi : '/' ∉ (toString i).toList ∧ '~' ∉ (toString i).toList := by
    rw [Str.toList_toString]
    exact ⟨Str.not_mem_toDigits (by decide) i, Str.not_mem_toDigits (by decide) i⟩
  have hsplit : bundlePath i =
      "/" ++ "webhooks" ++ ("/" ++ toString i ++ ("/" ++ "clientConfig" ++ ("/" ++ "caBundle"))) := by
    have hfront : "/webhooks/" = "/" ++ "webhooks" ++ "/" := by decide
    have hback : "/clientConfig/caBundle" = "/" ++ "clientConfig" ++ ("/" ++ "caBundle") := by decide
    rw [bundlePath, hfront, hback]
    simp only [String.append_assoc]
  have hslash : ∀ a b : String, ("/" ++ a ++ b).toList.head? = some '/' := fun a b => by
    rw [String.toList_append, String.toList_append]
    rfl
  rw [hsplit, tokens_cons (by decide) (hslash _ _), tokens_cons hi (hslash _ _),
    tokens_cons (by decide) (by decide), tokens_singleton (by decide)]
  rfl

section Webhook

variable {wh : Json} {fields : List (String × Json)}

/-- A webhook that says how it is reached is an object. -/
theorem exists_fields (h : wh.get "clientConfig" = some (.obj fields)) :
    ∃ members, wh = .obj members ∧ members.lookup "clientConfig" = some (.obj fields) := by
  cases wh with
  | obj members => exact ⟨members, rfl, h⟩
  | _ => cases h

theorem setBundle_eq {members : List (String × Json)} (value : Json)
    (h : members.lookup "clientConfig" = some (.obj fields)) : setBundle value (.obj members) =
      .obj (putField "clientConfig" (.obj (putField "caBundle" value fields)) members) := by
  rw [setBundle, update, updateField_eq_putField h]

theorem addAt_webhook (h : wh.get "clientConfig" = some (.obj fields)) (value : Json) :
    addAt value ["clientConfig", "caBundle"] wh = some (setBundle value wh) := by
  obtain ⟨members, rfl, hm⟩ := exists_fields h
  rw [addAt_cons_obj (by simp), hm, Option.bind_some, setBundle_eq value hm]
  rfl

theorem caBundle_setBundle (h : wh.get "clientConfig" = some (.obj fields)) (ca : CaState) :
    caBundle (setBundle (.str (caBundleBase64 ca)) wh) = some (expectedCa ca) := by
  obtain ⟨members, rfl, hm⟩ := exists_fields h
  simp [setBundle_eq _ hm, caBundle, Json.get, asStr, caBundleBase64, expectedCa]

theorem dropBundle_setBundle (h : wh.get "clientConfig" = some (.obj fields)) (value : Json) :
    dropBundle (setBundle value wh) = dropBundle wh := by
  obtain ⟨members, rfl, hm⟩ := exists_fields h
  rw [setBundle_eq value hm, dropBundle, dropBundle, update, update,
    updateField_putField hm (by rw [remove, remove, filter_putField])]

end Webhook

/-- The object with `value` for the bundle of every webhook. -/
def setBundles (value : Json) (object : Json) : Json :=
  object.update "webhooks" fun
    | .arr whs => .arr (whs.map (setBundle value))
    | j => j

theorem exists_webhooks {object : Json} {whs : List Json} (h : webhooks object = some whs) :
    ∃ members, object = .obj members ∧ members.lookup "webhooks" = some (.arr whs) := by
  cases object with
  | obj members =>
    refine ⟨members, rfl, ?_⟩
    simp only [webhooks, Json.get] at h
    cases hm : members.lookup "webhooks" with
    | none => rw [hm] at h; cases h
    | some j =>
      rw [hm, Option.bind_some] at h
      cases j with
      | arr xs => cases h; rfl
      | _ => cases h
  | _ => cases h

/-- Without a list of webhooks there is nothing to set. -/
theorem setBundles_of_none {object : Json} (h : webhooks object = none) (value : Json) :
    setBundles value object = object := by
  cases object with
  | obj members =>
    refine congrArg Json.obj (updateField_of_fixed fun v hv => ?_)
    cases v with
    | arr whs =>
      rw [webhooks, Json.get, hv] at h
      cases h
    | _ => rfl
  | _ => rfl

/-- **What the patch does**: it sets the bundle of every webhook. -/
theorem apply_jsonPatch (cfg : WebhookConfiguration) (ca : CaState) :
    JsonPatch.apply (jsonPatch ca cfg.object) cfg.object =
      some (setBundles (.str (caBundleBase64 ca)) cfg.object) := by
  cases hwhs : webhooks cfg.object with
  | none =>
    rw [jsonPatch, hwhs, setBundles_of_none hwhs]
    rfl
  | some whs =>
    obtain ⟨members, hobj, hm⟩ := exists_webhooks hwhs
    have hall : whs.mapM (addAt (.str (caBundleBase64 ca)) ["clientConfig", "caBundle"]) =
        some (whs.map (setBundle (.str (caBundleBase64 ca)))) := by
      refine mapM_eq_some_map fun wh hwh => ?_
      obtain ⟨fields, hfields⟩ := cfg.clientConfigs whs hwhs wh hwh
      exact addAt_webhook hfields _
    have hplaces : (List.range whs.length).map
          (fun i => ["webhooks", toString i, "clientConfig", "caBundle"]) =
        ((List.range' 0 whs.length).map fun i => toString i :: ["clientConfig", "caBundle"]).map
          ("webhooks" :: ·) := by
      rw [List.range_eq_range', List.map_map]
      rfl
    have helements := addAll_elements (List.cons_ne_nil "clientConfig" ["caBundle"])
      (.str (caBundleBase64 ca)) [] whs
    rw [jsonPatch, hwhs, Option.getD_some, apply_addOps tokens_bundlePath, hplaces, hobj,
      addAll_under hm (by simp)]
    rw [List.nil_append, List.length_nil, hall] at helements
    rw [helements, setBundles, update, updateField_eq_putField hm]
    rfl

/-- **The patch is exact**: every webhook has the CA, and nothing else has changed. -/
theorem injected_setBundles (cfg : WebhookConfiguration) (ca : CaState) :
    Injected ca cfg.object (setBundles (.str (caBundleBase64 ca)) cfg.object) := by
  cases hwhs : webhooks cfg.object with
  | none =>
    rw [setBundles_of_none hwhs]
    exact ⟨fun whs h => absurd (hwhs.symm.trans h) (by simp), rfl⟩
  | some whs =>
    obtain ⟨members, hobj, hm⟩ := exists_webhooks hwhs
    have hset : setBundles (.str (caBundleBase64 ca)) cfg.object = .obj (putField "webhooks"
        (.arr (whs.map (setBundle (.str (caBundleBase64 ca))))) members) := by
      rw [setBundles, hobj, update, updateField_eq_putField hm]
    have hclient := cfg.clientConfigs whs hwhs
    rw [hset, hobj]
    constructor
    · intro whs' h wh hwh
      simp only [webhooks, Json.get, lookup_putField_self, Option.bind_some, asArray,
        Option.some.injEq] at h
      subst h
      obtain ⟨wh₀, hwh₀, rfl⟩ := List.mem_map.mp hwh
      obtain ⟨fields, hfields⟩ := hclient wh₀ hwh₀
      exact caBundle_setBundle hfields ca
    · refine congrArg Json.obj (updateField_putField hm ?_)
      simp only [List.map_map, arr.injEq]
      refine List.map_congr_left fun wh hwh => ?_
      obtain ⟨fields, hfields⟩ := hclient wh hwh
      exact dropBundle_setBundle hfields _

/-! ## 4. The condition -/

/-- What the API server holds after the reconciler has run is what it should be. -/
def InjectsAll (kind : WebhookKind) (ca : CaState) (cfg : WebhookConfiguration)
    (store : Map WebhookKey Json) : Prop :=
  ∃ after, (webhookReconciler kind ca cfg true store).1.get (kind, nameAny cfg.object) = some after ∧
    Injected ca cfg.object after

/-- Behind a first webhook that has the CA, all the others have it, too. -/
def FirstTellsAll (ca : CaState) (object : Json) : Prop :=
  existingBundle object = some (expectedCa ca) →
    ∀ whs, webhooks object = some whs → ∀ wh ∈ whs, caBundle wh = some (expectedCa ca)

/-- A call that finds the CA in the first webhook changes nothing. -/
theorem injectsAll_iff_of_first {kind : WebhookKind} {ca : CaState} {cfg : WebhookConfiguration}
    {store : Map WebhookKey Json} (hneeds : needsCabundleInjection cfg.object = true)
    (hstored : store.get (kind, nameAny cfg.object) = some cfg.object)
    (hfirst : existingBundle cfg.object = some (expectedCa ca)) :
    InjectsAll kind ca cfg store ↔
      ∀ whs, webhooks cfg.object = some whs → ∀ wh ∈ whs, caBundle wh = some (expectedCa ca) := by
  have hsame : (webhookReconciler kind ca cfg true store).1 = store := by
    rw [webhookReconciler_eq, reconcileWebhook]
    simp only [hneeds, hfirst, Bool.true_eq_false, if_false, if_true]
  rw [InjectsAll, hsame]
  constructor
  · rintro ⟨after, hafter, hinjected⟩
    rw [hstored, Option.some.injEq] at hafter
    exact hafter ▸ hinjected.bundles
  · exact fun hall => ⟨cfg.object, hstored, hall, rfl⟩

/-- Any other call patches the object. -/
theorem injectsAll_of_not_first {kind : WebhookKind} {ca : CaState} {cfg : WebhookConfiguration}
    {store : Map WebhookKey Json} (hneeds : needsCabundleInjection cfg.object = true)
    (hstored : store.get (kind, nameAny cfg.object) = some cfg.object)
    (hfirst : existingBundle cfg.object ≠ some (expectedCa ca)) : InjectsAll kind ca cfg store := by
  rw [InjectsAll, webhookReconciler_eq, reconcileWebhook]
  simp only [hneeds, hfirst, hstored, apply_jsonPatch, Option.bind_some, Bool.true_eq_false, if_false]
  exact ⟨_, Map.get_insert_self _ _ _, injected_setBundles cfg ca⟩

/-- **The exact condition.**  For a configuration that asks for the CA, after a call without API
failure every webhook has the CA and nothing else has changed, exactly when the list does not have
a webhook without the CA behind a first one with it. -/
theorem webhook_bundles_iff (kind : WebhookKind) (ca : CaState) (cfg : WebhookConfiguration)
    (store : Map WebhookKey Json) (hneeds : needsCabundleInjection cfg.object = true)
    (hstored : store.get (kind, nameAny cfg.object) = some cfg.object) :
    InjectsAll kind ca cfg store ↔ FirstTellsAll ca cfg.object := by
  by_cases hfirst : existingBundle cfg.object = some (expectedCa ca)
  · rw [injectsAll_iff_of_first hneeds hstored hfirst]
    exact ⟨fun hall _ => hall, fun htells => htells hfirst⟩
  · exact iff_of_true (injectsAll_of_not_first hneeds hstored hfirst) fun h => absurd h hfirst

/-- A webhook with these members in its client configuration. -/
def sampleWebhook (name : String) (clientConfig : List (String × Json)) : Json :=
  .obj [("name", .str name), ("clientConfig", .obj clientConfig)]

/-- A configuration with two webhooks that asks for the CA. -/
def sampleConfig (first second : List (String × Json)) : WebhookConfiguration where
  object := .obj [
    ("metadata", .obj [("name", .str "hooks"),
      ("annotations", .obj [(injectCabundleAnnotationName, .str "true")])]),
    ("webhooks", .arr [sampleWebhook "a.example.com" first, sampleWebhook "b.example.com" second])]
  clientConfigs := by
    intro whs h wh hwh
    cases h
    rw [List.mem_pair] at hwh
    rcases hwh with rfl | rfl
    · exact ⟨first, rfl⟩
    · exact ⟨second, rfl⟩

def sampleCa : CaState := ⟨"CA", "key"⟩

/-- A configuration whose second webhook was appended after the first had its bundle. -/
def appendedConfig : WebhookConfiguration := sampleConfig [("caBundle", .str "Q0E=")] []

/-- The condition at a configuration without any bundle. -/
theorem webhook_bundles_iff_sampleConfig :
    InjectsAll .mutating sampleCa (sampleConfig [] [])
        (Map.empty.insert (.mutating, "hooks") (sampleConfig [] []).object) ↔
      FirstTellsAll sampleCa (sampleConfig [] []).object :=
  webhook_bundles_iff .mutating sampleCa (sampleConfig [] []) _ (by decide +kernel)
    (Map.get_insert_self _ _ _)

/-- The appended webhook never gets its bundle, in either kind of configuration. -/
theorem webhook_bundles_appended :
    ¬ InjectsAll .mutating sampleCa appendedConfig
        (Map.empty.insert (.mutating, "hooks") appendedConfig.object) ∧
      ¬ InjectsAll .validating sampleCa appendedConfig
        (Map.empty.insert (.validating, "hooks") appendedConfig.object) := by
  have hneeds : needsCabundleInjection appendedConfig.object = true := by decide +kernel
  have hfirst : existingBundle appendedConfig.object = some (expectedCa sampleCa) := by
    decide +kernel
  have hsecond : ¬ ∀ whs, webhooks appendedConfig.object = some whs →
      ∀ wh ∈ whs, caBundle wh = some (expectedCa sampleCa) := by
    intro hall
    have h := hall _ rfl (sampleWebhook "b.example.com" []) (by simp)
    exact absurd h (by decide +kernel)
  exact ⟨mt (injectsAll_iff_of_first hneeds (Map.get_insert_self _ _ _) hfirst).mp hsecond,
    mt (injectsAll_iff_of_first hneeds (Map.get_insert_self _ _ _) hfirst).mp hsecond⟩

end Picoshift.ServiceCa
