/-
# The service CA: the two reconcilers

Every start of the simulator generates a CA.  `reconcile_service` keeps a Secret with a serving
certificate for every Service that asks for one; `reconcile_configmap` puts the CA certificate into
every ConfigMap that asks for it.  This file translates the two functions, one call of each at a
time.  What the API server and `rcgen` answer during a call is an argument (`Calls`).

The two functions decide that there is nothing to do by two DIFFERENT tests: `reconcile_service`
compares a fingerprint of the CA certificate that it left on the Secret, `reconcile_configmap` only
looks whether the key is blank.  Each function has one theorem that says what it can do
(`reconcileService_effect`, `reconcileConfigmap_effect`); nothing else unfolds them.
-/
import Picoshift.Lib.Base64
import Picoshift.Lib.Map
import Picoshift.Lib.Str
import Picoshift.Lib.Utf8

namespace Picoshift.ServiceCa

/-! ## 1. The CA and its certificates -/

/-- `CaState`. -/
structure CaState where
  caCertPem : String
  caKeyPem : String
  deriving DecidableEq, Repr

/-- A certificate: the CA whose key signed it, the names it is for and its own key. -/
structure Cert where
  issuer : CaState
  sans : List String
  keyPem : String
  deriving DecidableEq, Repr

/-- `sign_cert`: a certificate of the CA on a fresh key pair `newKey`, which `rcgen` may fail to
make. -/
def signCert (ca : CaState) (sans : List String) (newKey : Option String) :
    Option (Cert × String) :=
  newKey.map fun keyPem => (⟨ca, sans, keyPem⟩, keyPem)

/-- `ca_bundle_base64`, which also serves as the fingerprint of the CA. -/
def caBundleBase64 (ca : CaState) : String := Base64.encode Base64.standard (Utf8.encode ca.caCertPem)

/-- The fingerprint tells CA certificates apart. -/
theorem caCertPem_eq_of_caBundleBase64 {ca ca' : CaState}
    (h : caBundleBase64 ca = caBundleBase64 ca') : ca.caCertPem = ca'.caCertPem :=
  Utf8.encode_injective (Base64.encode_injective _ h)

/-! ## 2. The objects -/

/-- What identifies an object: its namespace and its name. -/
abbrev Key := String × String

/-- A Service, as far as the controller reads it. -/
structure Service where
  ns : String
  name : String
  uid : String
  annotations : Map String String

structure ConfigMap where
  ns : String
  name : String
  annotations : Map String String
  labels : Map String String
  data : Map String String

/-- The data of a Secret: `tls.crt` and `tls.key` as the controller writes them, or anything
else. -/
inductive SecretData where
  | tls (crt : Cert) (keyPem : String)
  | foreign (entries : List (String × String))
  deriving DecidableEq, Repr

structure OwnerReference where
  apiVersion : String
  kind : String
  name : String
  uid : String
  controller : Bool
  blockOwnerDeletion : Bool
  deriving DecidableEq, Repr

structure Secret where
  annotations : Map String String
  owners : List OwnerReference
  type : String
  data : SecretData

def Service.key (svc : Service) : Key := (svc.ns, svc.name)

def ConfigMap.key (cm : ConfigMap) : Key := (cm.ns, cm.name)

/-- What a controller is told to do after a call: wait for the object to change, or try again. -/
inductive Action where
  | awaitChange
  | requeue (seconds : Nat)
  deriving DecidableEq, Repr

/-- `error_policy_svc` and `error_policy_cm`: what an API error comes to. -/
def errorPolicy : Action := .requeue 10

/-! ## 3. Services -/

/-- `SERVING_CERT_ANNOTATION`. -/
def servingCertAnnotationName : String := "service.beta.openshift.io/serving-cert-secret-name"

/-- The annotation that holds the fingerprint of the CA. -/
def fingerprintAnnotationName : String := "ocp-sim/ca-fingerprint"

/-- The Secret a Service asks for. -/
def Service.secretKey (svc : Service) : Option Key :=
  (svc.annotations.get servingCertAnnotationName).map fun secretName => (svc.ns, secretName)

/-- The answers during one call of `reconcile_service`: whether reading, deleting and creating the
Secret succeed, and the key pair that `rcgen` makes. -/
structure Calls where
  getOk : Bool
  deleteOk : Bool
  newKey : Option String
  createOk : Bool
  deriving DecidableEq, Repr

/-- The Secret `reconcile_service` writes. -/
def servingSecret (ca : CaState) (svc : Service) (crt : Cert) (keyPem : String) : Secret where
  annotations := Map.ofPairs [(fingerprintAnnotationName, caBundleBase64 ca)]
  owners := [⟨"v1", "Service", svc.name, svc.uid, true, true⟩]
  type := "kubernetes.io/tls"
  data := .tls crt keyPem

/-- The names a serving certificate is for. -/
def servingNames (svc : Service) : List String :=
  let cn := svc.name ++ "." ++ svc.ns ++ ".svc"
  [cn, cn ++ ".cluster.local"]

/-- The second half of `reconcile_service`: sign a certificate and store it. -/
def createSecret (ca : CaState) (svc : Service) (key : Key) (calls : Calls)
    (secrets : Map Key Secret) : Map Key Secret × Action :=
  match signCert ca (servingNames svc) calls.newKey with
  | none => (secrets, .requeue 30)
  | some (crt, keyPem) =>
    if calls.createOk = false then (secrets, errorPolicy)
    else (secrets.insert key (servingSecret ca svc crt keyPem), .awaitChange)

/-- `reconcile_service`. -/
def reconcileService (ca : CaState) (svc : Service) (calls : Calls) (secrets : Map Key Secret) :
    Map Key Secret × Action :=
  match svc.secretKey with
  | none => (secrets, .awaitChange)
  | some key =>
  if calls.getOk = false then (secrets, errorPolicy)
  else
  match secrets.get key with
  | none => createSecret ca svc key calls secrets
  | some existing =>
  if existing.annotations.get fingerprintAnnotationName = some (caBundleBase64 ca) then
    (secrets, .awaitChange)
  else if calls.deleteOk = false then (secrets, errorPolicy)
  else createSecret ca svc key calls (secrets.erase key)

/-- The Secret bears the fingerprint of the CA. -/
def Secret.Marked (ca : CaState) (secret : Secret) : Prop :=
  secret.annotations.get fingerprintAnnotationName = some (caBundleBase64 ca)

/-- The Secret at `key` is there and bears the fingerprint of the CA. -/
def Current (ca : CaState) (secrets : Map Key Secret) (key : Key) : Prop :=
  ∃ secret, secrets.get key = some secret ∧ secret.Marked ca

/-- What a call for a Service that asks for the Secret at `key` can do. -/
inductive SecretEffect (ca : CaState) (svc : Service) (key : Key) (secrets : Map Key Secret) :
    Map Key Secret × Action → Prop
  /-- A call failed before anything was changed. -/
  | failed {action : Action} (again : action ≠ .awaitChange) :
      SecretEffect ca svc key secrets (secrets, action)
  /-- The Secret is of this CA. -/
  | kept (current : Current ca secrets key) :
      SecretEffect ca svc key secrets (secrets, .awaitChange)
  /-- The old Secret is gone and there is no new one yet. -/
  | dropped {action : Action} (stale : ¬ Current ca secrets key) (again : action ≠ .awaitChange) :
      SecretEffect ca svc key secrets (secrets.erase key, action)
  /-- There is a new Secret. -/
  | renewed (keyPem : String) (stale : ¬ Current ca secrets key) :
      SecretEffect ca svc key secrets (secrets.insert key
        (servingSecret ca svc ⟨ca, servingNames svc, keyPem⟩ keyPem), .awaitChange)

/-- The second half either changes nothing and is called again, or stores a certificate of this
CA. -/
theorem createSecret_cases (ca : CaState) (svc : Service) (key : Key) (calls : Calls)
    (secrets : Map Key Secret) :
    (∃ action, action ≠ .awaitChange ∧
        createSecret ca svc key calls secrets = (secrets, action)) ∨
      ∃ keyPem, createSecret ca svc key calls secrets = (secrets.insert key
        (servingSecret ca svc ⟨ca, servingNames svc, keyPem⟩ keyPem), .awaitChange) := by
  rw [createSecret, signCert]
  cases calls.newKey with
  | none => exact Or.inl ⟨.requeue 30, by decide, rfl⟩
  | some keyPem =>
    cases hcreate : calls.createOk with
    | false => exact Or.inl ⟨errorPolicy, by decide, by simp⟩
    | true => exact Or.inr ⟨keyPem, by simp⟩

theorem reconcileService_effect {ca : CaState} {svc : Service} {key : Key}
    (hkey : svc.secretKey = some key) (calls : Calls) (secrets : Map Key Secret) :
    SecretEffect ca svc key secrets (reconcileService ca svc calls secrets) := by
  have herror : errorPolicy ≠ .awaitChange := by decide
  rw [reconcileService, hkey]
  simp only
  split
  · exact .failed herror
  · cases hget : secrets.get key with
    | none =>
      have hstale : ¬ Current ca secrets key := by
        rintro ⟨secret, hsecret, -⟩
        rw [hget] at hsecret
        cases hsecret
      rcases createSecret_cases ca svc key calls secrets with ⟨action, hagain, h⟩ | ⟨keyPem, h⟩
      · simp only [h]
        exact .failed hagain
      · simp only [h]
        exact .renewed keyPem hstale
    | some existing =>
      simp only
      split
      · rename_i hmark
        exact .kept ⟨existing, hget, hmark⟩
      · rename_i hmark
        have hstale : ¬ Current ca secrets key := by
          rintro ⟨secret, hsecret, hcurrent⟩
          rw [hget] at hsecret
          cases hsecret
          exact hmark hcurrent
        split
        · exact .failed herror
        · -- the old Secret is deleted before the new one is signed
          rcases createSecret_cases ca svc key calls (secrets.erase key) with
            ⟨action, hagain, h⟩ | ⟨keyPem, h⟩
          · rw [h]
            exact .dropped hstale hagain
          · rw [h, Map.insert_erase]
            exact .renewed keyPem hstale

section Effect

variable {ca : CaState} {svc : Service} {key : Key} {secrets : Map Key Secret}
  {result : Map Key Secret × Action}

/-- A call that is content leaves a Secret of this CA. -/
theorem SecretEffect.current (h : SecretEffect ca svc key secrets result)
    (hawait : result.2 = .awaitChange) : Current ca result.1 key := by
  cases h with
  | failed again => exact absurd hawait again
  | kept current => exact current
  | dropped _ again => exact absurd hawait again
  | renewed keyPem _ => exact ⟨_, Map.get_insert_self _ _ _, Map.get_insert_self _ _ _⟩

/-- No call touches a Secret of this CA, its own or another's. -/
theorem SecretEffect.keeps (h : SecretEffect ca svc key secrets result) {k : Key}
    (hk : Current ca secrets k) : Current ca result.1 k := by
  obtain ⟨secret, hsecret, hmark⟩ := hk
  have hne : ¬ Current ca secrets key → k ≠ key := by
    rintro hstale rfl
    exact hstale ⟨secret, hsecret, hmark⟩
  cases h with
  | failed _ => exact ⟨secret, hsecret, hmark⟩
  | kept _ => exact ⟨secret, hsecret, hmark⟩
  | dropped stale _ => exact ⟨secret, Map.get_erase_eq_some.mpr ⟨hne stale, hsecret⟩, hmark⟩
  | renewed _ stale =>
    exact ⟨secret, Map.get_insert_eq_some.mpr (Or.inr ⟨hne stale, hsecret⟩), hmark⟩

/-- A Secret after a call was there before, or is the one the call wrote. -/
theorem SecretEffect.get_eq_some (h : SecretEffect ca svc key secrets result) {k : Key}
    {secret : Secret} (hk : result.1.get k = some secret) :
    secrets.get k = some secret ∨ (k = key ∧ ∃ keyPem,
      secret = servingSecret ca svc ⟨ca, servingNames svc, keyPem⟩ keyPem) := by
  cases h with
  | failed _ => exact Or.inl hk
  | kept _ => exact Or.inl hk
  | dropped _ _ => exact Or.inl (Map.get_erase_eq_some.mp hk).2
  | renewed keyPem _ =>
    rcases Map.get_insert_eq_some.mp hk with ⟨rfl, rfl⟩ | ⟨-, hk⟩
    · exact Or.inr ⟨rfl, keyPem, rfl⟩
    · exact Or.inl hk

end Effect

/-! ## 4. ConfigMaps -/

/-- `INJECT_CABUNDLE_ANNOTATION`. -/
def injectCabundleAnnotationName : String := "service.beta.openshift.io/inject-cabundle"

/-- The label that asks for the trusted bundle. -/
def injectTrustedLabel : String := "config.openshift.io/inject-trusted-cabundle"

/-- The key the annotation asks for. -/
def serviceCaKey : String := "service-ca.crt"

/-- The key the label asks for. -/
def trustedCaKey : String := "odh-ca-bundle.crt"

/-- `inject_serving`. -/
def ConfigMap.injectServing (cm : ConfigMap) : Bool :=
  cm.annotations.get injectCabundleAnnotationName == some "true"

/-- `inject_trusted`. -/
def ConfigMap.injectTrusted (cm : ConfigMap) : Bool :=
  cm.labels.get injectTrustedLabel == some "true"

/-- `target_key`. -/
def ConfigMap.targetKey (cm : ConfigMap) : String :=
  if cm.injectTrusted then trustedCaKey else serviceCaKey

/-- The key holds something that is not blank. -/
def ConfigMap.filled (cm : ConfigMap) (key : String) : Bool :=
  match cm.data.get key with
  | some v => Str.trim v != ""
  | none => false

/-- The merge patch of `reconcile_configmap`. -/
def ConfigMap.patch (cm : ConfigMap) (ca : CaState) : ConfigMap :=
  { cm with data := cm.data.insert cm.targetKey ca.caCertPem }

/-- `reconcile_configmap`: the ConfigMap afterwards, whether it was written to, and the action. -/
def reconcileConfigmap (ca : CaState) (cm : ConfigMap) (patchOk : Bool) :
    ConfigMap × Bool × Action :=
  if !cm.injectServing && !cm.injectTrusted then (cm, false, .awaitChange)
  else if cm.filled cm.targetKey then (cm, false, .awaitChange)
  else if patchOk = false then (cm, false, errorPolicy)
  else (cm.patch ca, true, .awaitChange)

/-- The CA keys a ConfigMap asks for. -/
def ConfigMap.requested (cm : ConfigMap) : List String :=
  (if cm.injectServing then [serviceCaKey] else []) ++
    if cm.injectTrusted then [trustedCaKey] else []

/-- What a call can do with a ConfigMap. -/
inductive ConfigMapEffect (ca : CaState) (cm : ConfigMap) : ConfigMap × Bool × Action → Prop
  /-- Nothing is asked for, or the target key is not blank: wait. -/
  | settled (h : cm.requested ≠ [] → cm.filled cm.targetKey = true) :
      ConfigMapEffect ca cm (cm, false, .awaitChange)
  /-- The patch failed. -/
  | failed : ConfigMapEffect ca cm (cm, false, errorPolicy)
  /-- The target key was blank and is written. -/
  | injected (blank : cm.filled cm.targetKey = false) :
      ConfigMapEffect ca cm (cm.patch ca, true, .awaitChange)

theorem reconcileConfigmap_effect (ca : CaState) (cm : ConfigMap) (patchOk : Bool) :
    ConfigMapEffect ca cm (reconcileConfigmap ca cm patchOk) := by
  rw [reconcileConfigmap]
  split
  · rename_i hnone
    rw [Bool.and_eq_true, Bool.not_eq_true', Bool.not_eq_true'] at hnone
    refine .settled fun hreq => absurd ?_ hreq
    simp [ConfigMap.requested, hnone.1, hnone.2]
  · split
    · rename_i hfilled
      exact .settled fun _ => hfilled
    · rename_i hfilled
      split
      · exact .failed
      · exact .injected (by simpa using hfilled)

@[simp] theorem ConfigMap.patch_patch (cm : ConfigMap) (ca : CaState) :
    (cm.patch ca).patch ca = cm.patch ca := by
  have hdata : (cm.data.insert cm.targetKey ca.caCertPem).insert cm.targetKey ca.caCertPem =
      cm.data.insert cm.targetKey ca.caCertPem := Map.insert_insert _ _ _ _
  exact congrArg (fun data => { cm with data := data }) hdata

end Picoshift.ServiceCa
