/-
# The service CA: trust across restarts

The simulator is started again and again, each time with a new CA, while Services and ConfigMaps
are created.  Between starts the controllers work off their queues: a start queues every object, a
creation and a patch queue the object they touch, and a call that asks for a retry keeps it queued.
The cluster is QUIET when nothing is queued.

The two halves of the trust relation behave differently.

* The Secrets follow the CA.  In a quiet cluster every serving certificate was signed by a CA with
  the current certificate, and there is one for every Service that asks (`serviceInv`).
* The ConfigMaps do not.  A key that is not blank is never written again, and of two requested keys
  only one is ever written, so what a ConfigMap holds is decided by what the latest start FOUND in
  it (`configMapInv`).

Together: in a quiet cluster the requested keys hold the certificate of the signing CA exactly when
no Service asks for a serving certificate, or every ConfigMap was `Ready` for the current CA when
the latest start received it (`ca_keys_hold_iff`).
-/
import Mathlib.Data.Option.Basic
import Mathlib.Logic.Function.Basic
import Picoshift.Lib.Machine
import Picoshift.ServiceCa.Reconcile

namespace Picoshift.ServiceCa

/-! ## 1. The cluster -/

/-- The running simulator's CA, the objects, and the queues of the two controllers. -/
structure Cluster where
  ca : Option CaState
  services : Map Key Service
  configMaps : Map Key ConfigMap
  secrets : Map Key Secret
  queuedServices : Key → Bool
  queuedConfigMaps : Key → Bool

def Cluster.init : Cluster :=
  ⟨none, Map.empty, Map.empty, Map.empty, fun _ => false, fun _ => false⟩

/-- What can happen: a start with the CA it generates, a creation, a call of a reconciler. -/
inductive Input where
  | start (ca : CaState)
  | createService (svc : Service)
  | createConfigMap (cm : ConfigMap)
  | reconcileService (key : Key) (calls : Calls)
  | reconcileConfigmap (key : Key) (patchOk : Bool)

/-- One step, with the action the controller is told.  Creating what exists is refused; a
reconciler is only called by a running simulator and for an object that exists. -/
def Cluster.step (s : Cluster) : Input → Cluster × Option Action
  | .start ca =>
    ({ s with
        ca := some ca
        queuedServices := fun key => (s.services.get key).isSome
        queuedConfigMaps := fun key => (s.configMaps.get key).isSome }, none)
  | .createService svc =>
    match s.services.get svc.key with
    | some _ => (s, none)
    | none =>
      ({ s with
          services := s.services.insert svc.key svc
          queuedServices := Function.update s.queuedServices svc.key true }, none)
  | .createConfigMap cm =>
    match s.configMaps.get cm.key with
    | some _ => (s, none)
    | none =>
      ({ s with
          configMaps := s.configMaps.insert cm.key cm
          queuedConfigMaps := Function.update s.queuedConfigMaps cm.key true }, none)
  | .reconcileService key calls =>
    match s.ca, s.services.get key with
    | some ca, some svc =>
      let (secrets, action) := ServiceCa.reconcileService ca svc calls s.secrets
      ({ s with
          secrets := secrets
          queuedServices :=
            Function.update s.queuedServices key (decide (action ≠ .awaitChange)) }, some action)
    | _, _ => (s, none)
  | .reconcileConfigmap key patchOk =>
    match s.ca, s.configMaps.get key with
    | some ca, some cm =>
      let (cm, written, action) := ServiceCa.reconcileConfigmap ca cm patchOk
      ({ s with
          configMaps := s.configMaps.insert key cm
          queuedConfigMaps := Function.update s.queuedConfigMaps key
            (written || decide (action ≠ .awaitChange)) }, some action)
    | _, _ => (s, none)

/-- The cluster as a machine. -/
def cluster : Machine Cluster Input (Option Action) where
  step := Cluster.step

abbrev History := List (Entry Cluster Input (Option Action))

/-- Every object that exists has been worked off. -/
def Quiet (s : Cluster) : Prop :=
  (∀ key svc, s.services.get key = some svc → s.queuedServices key = false) ∧
    ∀ key cm, s.configMaps.get key = some cm → s.queuedConfigMaps key = false

/-- Every requested key holds the certificate of the CA that signed every serving certificate in
the Secrets. -/
def CaKeysHold (s : Cluster) : Prop :=
  ∀ k cm, s.configMaps.get k = some cm → ∀ key ∈ cm.requested,
    ∀ k' secret crt keyPem, s.secrets.get k' = some secret → secret.data = .tls crt keyPem →
      cm.data.get key = some crt.issuer.caCertPem

/-! ## 2. The Secrets follow the CA -/

/-- What holds of the Secrets in every run. -/
structure ServiceInv (s : Cluster) : Prop where
  /-- A Secret holds a serving certificate and the fingerprint of its issuer. -/
  marked : ∀ k secret, s.secrets.get k = some secret →
    ∃ crt keyPem, secret.data = .tls crt keyPem ∧ secret.Marked crt.issuer
  /-- A Secret is asked for by some Service. -/
  asked : ∀ k secret, s.secrets.get k = some secret →
    ∃ key svc, s.services.get key = some svc ∧ svc.secretKey = some k
  /-- A Service that was worked off has its Secret, and of the current CA. -/
  current : ∀ ca key svc k, s.ca = some ca → s.services.get key = some svc →
    svc.secretKey = some k → s.queuedServices key = false → Current ca s.secrets k

theorem serviceInv_init : ServiceInv Cluster.init where
  marked _ _ h := by cases h
  asked _ _ h := by cases h
  current _ _ _ _ h := by cases h

/-- A call of `reconcile_service` for a Service that asks for the Secret at `k`. -/
theorem ServiceInv.reconcile {s : Cluster} (hs : ServiceInv s) {ca : CaState} (hca : s.ca = some ca)
    {key k : Key} {svc : Service} (hsvc : s.services.get key = some svc)
    (hk : svc.secretKey = some k) {result : Map Key Secret × Action}
    (heff : SecretEffect ca svc k s.secrets result) :
    ServiceInv { s with
      secrets := result.1
      queuedServices :=
        Function.update s.queuedServices key (decide (result.2 ≠ .awaitChange)) } := by
  refine ⟨?_, ?_, ?_⟩
  · intro k' secret h
    rcases heff.get_eq_some h with h | ⟨-, keyPem, rfl⟩
    · exact hs.marked k' secret h
    · exact ⟨_, keyPem, rfl, Map.get_insert_self _ _ _⟩
  · intro k' secret h
    rcases heff.get_eq_some h with h | ⟨rfl, -⟩
    · exact hs.asked k' secret h
    · exact ⟨key, svc, hsvc, hk⟩
  · intro ca' key' svc' k' hca' hsvc' hk' hq
    obtain rfl : ca = ca' := Option.some.inj (hca.symm.trans hca')
    by_cases hkey : key' = key
    · -- the Service itself: it is off the queue, so the call was content
      subst hkey
      obtain rfl : svc = svc' := Option.some.inj (hsvc.symm.trans hsvc')
      obtain rfl : k = k' := Option.some.inj (hk.symm.trans hk')
      exact heff.current (by simpa using hq)
    · simp only [Function.update_of_ne hkey] at hq
      exact heff.keeps (hs.current ca key' svc' k' hca hsvc' hk' hq)

/-- Every step keeps the invariant of the Secrets. -/
theorem serviceInv_step {s : Cluster} (hs : ServiceInv s) (i : Input) :
    ServiceInv (cluster.step s i).1 := by
  cases i with
  | start ca =>
    refine ⟨hs.marked, hs.asked, fun ca' key svc k _ hsvc _ hq => ?_⟩
    simp only [cluster, Cluster.step] at hsvc hq
    rw [hsvc] at hq
    cases hq
  | createService svc =>
    simp only [cluster, Cluster.step]
    cases hget : s.services.get svc.key with
    | some _ => exact hs
    | none =>
      have hne : ∀ key svc', s.services.get key = some svc' → key ≠ svc.key := by
        rintro key svc' h rfl
        rw [hget] at h
        cases h
      refine ⟨hs.marked, fun k secret h => ?_, fun ca key svc' k hca hsvc hk hq => ?_⟩
      · obtain ⟨key, svc', hsvc, hk⟩ := hs.asked k secret h
        exact ⟨key, svc', by rw [Map.get_insert_ne _ (hne key svc' hsvc), hsvc], hk⟩
      · rcases Map.get_insert_eq_some.mp hsvc with ⟨rfl, -⟩ | ⟨hkey, hsvc⟩
        · simp at hq
        · simp only [Function.update_of_ne hkey] at hq
          exact hs.current ca key svc' k hca hsvc hk hq
  | createConfigMap cm =>
    simp only [cluster, Cluster.step]
    split
    · exact hs
    · exact ⟨hs.marked, hs.asked, hs.current⟩
  | reconcileService key calls =>
    simp only [cluster, Cluster.step]
    split
    · rename_i ca svc hca hsvc
      cases hk : svc.secretKey with
      | some k => exact hs.reconcile hca hsvc hk (reconcileService_effect hk calls s.secrets)
      | none =>
        simp only [ServiceCa.reconcileService, hk]
        refine ⟨hs.marked, hs.asked, fun ca' key' svc' k hca' hsvc' hk' hq => ?_⟩
        by_cases hkey : key' = key
        · subst hkey
          obtain rfl : svc = svc' := Option.some.inj (hsvc.symm.trans hsvc')
          rw [hk] at hk'
          cases hk'
        · simp only [Function.update_of_ne hkey] at hq
          exact hs.current ca' key' svc' k hca' hsvc' hk' hq
    · exact hs
  | reconcileConfigmap key patchOk =>
    simp only [cluster, Cluster.step]
    split
    · exact ⟨hs.marked, hs.asked, hs.current⟩
    · exact hs

theorem serviceInv (run : List Input) : ServiceInv (cluster.exec Cluster.init run) :=
  cluster.invariant serviceInv_init (fun _ i hs => serviceInv_step hs i) run

/-! ## 3. The ConfigMaps keep what the latest start found -/

/-- The ConfigMaps as the latest start received them: those it found, as it found them, and those
created since, as they were created. -/
def receive (received : Map Key ConfigMap) (e : Entry Cluster Input (Option Action)) :
    Map Key ConfigMap :=
  match e.input with
  | .start _ => e.before.configMaps
  | .createConfigMap cm =>
    match e.before.configMaps.get cm.key with
    | some _ => received
    | none => received.insert cm.key cm
  | _ => received

def received (h : History) : Map Key ConfigMap := h.foldl receive Map.empty

theorem received_append (h : History) (e : Entry Cluster Input (Option Action)) :
    received (h ++ [e]) = receive (received h) e := by
  rw [received, List.foldl_append]
  rfl

/-- What a start makes of a ConfigMap: nothing, or it fills the blank target key. -/
def Evolved (ca : Option CaState) (cm₀ cm : ConfigMap) : Prop :=
  cm = cm₀ ∨ (cm₀.filled cm₀.targetKey = false ∧ ∃ c, ca = some c ∧ cm = cm₀.patch c)

/-- What holds of the ConfigMaps in every run. -/
structure ConfigMapInv (received : Map Key ConfigMap) (s : Cluster) : Prop where
  /-- Every ConfigMap comes from the one that was received. -/
  evolved : ∀ k, Option.Rel (Evolved s.ca) (received.get k) (s.configMaps.get k)
  /-- A ConfigMap that was worked off has something in its target key. -/
  filled : ∀ ca k cm, s.ca = some ca → s.configMaps.get k = some cm →
    s.queuedConfigMaps k = false → cm.requested ≠ [] → cm.filled cm.targetKey = true

theorem rel_some_left {r : ConfigMap → ConfigMap → Prop} {o o' : Option ConfigMap}
    (h : Option.Rel r o o') {cm : ConfigMap} (ho : o = some cm) : ∃ cm', o' = some cm' ∧ r cm cm' := by
  subst ho
  cases h with
  | some h => exact ⟨_, rfl, h⟩

theorem rel_some_right {r : ConfigMap → ConfigMap → Prop} {o o' : Option ConfigMap}
    (h : Option.Rel r o o') {cm' : ConfigMap} (ho : o' = some cm') : ∃ cm, o = some cm ∧ r cm cm' := by
  subst ho
  cases h with
  | some h => exact ⟨_, rfl, h⟩

/-- Replacing the ConfigMap at one key, on both sides. -/
theorem rel_insert {r : ConfigMap → ConfigMap → Prop} {m m' : Map Key ConfigMap}
    (h : ∀ k, Option.Rel r (m.get k) (m'.get k)) {key : Key} {cm cm' : ConfigMap} (hcm : r cm cm')
    (k : Key) : Option.Rel r ((m.insert key cm).get k) ((m'.insert key cm').get k) := by
  by_cases hk : k = key
  · subst hk
    rw [Map.get_insert_self, Map.get_insert_self]
    exact .some hcm
  · rw [Map.get_insert_ne _ hk, Map.get_insert_ne _ hk]
    exact h k

/-- A call of `reconcile_configmap`. -/
theorem ConfigMapInv.reconcile {s : Cluster} {received : Map Key ConfigMap}
    (hs : ConfigMapInv received s) {ca : CaState} (hca : s.ca = some ca) {key : Key}
    {cm : ConfigMap} (hcm : s.configMaps.get key = some cm) {result : ConfigMap × Bool × Action}
    (heff : ConfigMapEffect ca cm result) :
    ConfigMapInv received { s with
      configMaps := s.configMaps.insert key result.1
      queuedConfigMaps := Function.update s.queuedConfigMaps key
        (result.2.1 || decide (result.2.2 ≠ .awaitChange)) } := by
  -- the ConfigMap at `key` comes from a received one, before the call and after it
  obtain ⟨cm₀, hcm₀, hevolved⟩ := rel_some_right (hs.evolved key) hcm
  have hafter : Evolved s.ca cm₀ result.1 := by
    cases heff with
    | settled _ => exact hevolved
    | failed => exact hevolved
    | injected blank =>
      rcases hevolved with rfl | ⟨hblank, c, hc, rfl⟩
      · exact Or.inr ⟨blank, ca, hca, rfl⟩
      · obtain rfl : ca = c := Option.some.inj (hca.symm.trans hc)
        exact Or.inr ⟨hblank, ca, hc, ConfigMap.patch_patch cm₀ ca⟩
  constructor
  · intro k
    have hsame : received.insert key cm₀ = received := by
      refine Map.ext fun k' => ?_
      by_cases hk : k' = key
      · rw [hk, Map.get_insert_self, hcm₀]
      · rw [Map.get_insert_ne _ hk]
    rw [← hsame]
    exact rel_insert hs.evolved hafter k
  · intro ca' k cm' hca' hcm' hq hreq
    rcases Map.get_insert_eq_some.mp hcm' with ⟨rfl, rfl⟩ | ⟨hk, hcm'⟩
    · -- it is off the queue, so the call found nothing to do
      cases heff with
      | settled h => exact h hreq
      | failed => simp [errorPolicy] at hq
      | injected _ => simp at hq
    · simp only [Function.update_of_ne hk] at hq
      exact hs.filled ca' k cm' hca' hcm' hq hreq

theorem evolved_refl (ca : Option CaState) (m : Map Key ConfigMap) (k : Key) :
    Option.Rel (Evolved ca) (m.get k) (m.get k) := by
  cases m.get k with
  | none => exact .none
  | some cm => exact .some (Or.inl rfl)

/-- Every step keeps the invariant of the ConfigMaps. -/
theorem configMapInv_step {h : History} {s : Cluster} (hs : ConfigMapInv (received h) s)
    (i : Input) : ConfigMapInv (received (h ++ [cluster.entry s i])) (cluster.step s i).1 := by
  rw [received_append]
  cases i with
  | start ca =>
    refine ⟨evolved_refl (some ca) s.configMaps, fun ca' k cm _ hcm hq _ => ?_⟩
    simp only [cluster, Cluster.step] at hcm hq
    rw [hcm] at hq
    cases hq
  | createService svc =>
    simp only [receive, Machine.entry, cluster, Cluster.step]
    split
    · exact hs
    · exact ⟨hs.evolved, hs.filled⟩
  | createConfigMap cm =>
    simp only [receive, Machine.entry, cluster, Cluster.step]
    cases hget : s.configMaps.get cm.key with
    | some _ => exact hs
    | none =>
      refine ⟨rel_insert hs.evolved (Or.inl rfl), fun ca k cm' hca hcm hq hreq => ?_⟩
      rcases Map.get_insert_eq_some.mp hcm with ⟨rfl, -⟩ | ⟨hk, hcm⟩
      · simp at hq
      · simp only [Function.update_of_ne hk] at hq
        exact hs.filled ca k cm' hca hcm hq hreq
  | reconcileService key calls =>
    simp only [receive, Machine.entry, cluster, Cluster.step]
    split
    · exact ⟨hs.evolved, hs.filled⟩
    · exact hs
  | reconcileConfigmap key patchOk =>
    simp only [receive, Machine.entry, cluster, Cluster.step]
    split
    · rename_i ca cm hca hcm
      exact hs.reconcile hca hcm (reconcileConfigmap_effect ca cm patchOk)
    · exact hs

theorem configMapInv (run : List Input) :
    ConfigMapInv (received (cluster.trace Cluster.init run)) (cluster.exec Cluster.init run) := by
  have h0 : ConfigMapInv (received []) Cluster.init :=
    ⟨evolved_refl none Map.empty, fun _ _ _ h => by cases h⟩
  exact cluster.history_induction (P := fun h s => ConfigMapInv (received h) s) h0
    (fun _ _ i hs => configMapInv_step hs i) run

/-! ## 4. In a quiet cluster -/

/-- Every serving certificate is of the current CA. -/
theorem issuer_of_quiet {s : Cluster} (hs : ServiceInv s) (hquiet : Quiet s) {ca : CaState}
    (hca : s.ca = some ca) {k : Key} {secret : Secret} (hsecret : s.secrets.get k = some secret)
    {crt : Cert} {keyPem : String} (hdata : secret.data = .tls crt keyPem) :
    crt.issuer.caCertPem = ca.caCertPem := by
  obtain ⟨crt', keyPem', hdata', hmark⟩ := hs.marked k secret hsecret
  obtain ⟨rfl, -⟩ : crt = crt' ∧ keyPem = keyPem' := by
    rw [hdata'] at hdata
    cases hdata
    exact ⟨rfl, rfl⟩
  obtain ⟨key, svc, hsvc, hk⟩ := hs.asked k secret hsecret
  obtain ⟨secret', hsecret', hcurrent⟩ :=
    hs.current ca key svc k hca hsvc hk (hquiet.1 key svc hsvc)
  obtain rfl : secret = secret' := Option.some.inj (hsecret.symm.trans hsecret')
  exact caCertPem_eq_of_caBundleBase64 (Option.some.inj (hmark.symm.trans hcurrent))

/-- What a ConfigMap has to be like for the CA to reach all the keys it asks for: the target key is
blank or holds the certificate already, and another key holds it already. -/
def Ready (ca : CaState) (cm : ConfigMap) : Prop :=
  ∀ key ∈ cm.requested, cm.data.get key = some ca.caCertPem ∨
    (key = cm.targetKey ∧ cm.filled key = false)

/-- A ConfigMap that was worked off holds the certificate in all its keys exactly when it was
ready. -/
theorem holds_iff_ready {ca : CaState} {cm₀ cm : ConfigMap} (h : Evolved (some ca) cm₀ cm)
    (hfilled : cm.requested ≠ [] → cm.filled cm.targetKey = true) :
    (∀ key ∈ cm.requested, cm.data.get key = some ca.caCertPem) ↔ Ready ca cm₀ := by
  rcases h with rfl | ⟨hblank, c, hc, rfl⟩
  · constructor
    · exact fun hall key hkey => Or.inl (hall key hkey)
    · intro hready key hkey
      rcases hready key hkey with h | ⟨rfl, hempty⟩
      · exact h
      · rw [hfilled (List.ne_nil_of_mem hkey)] at hempty
        cases hempty
  · obtain rfl : ca = c := Option.some.inj hc
    have htarget : (cm₀.patch ca).data.get cm₀.targetKey = some ca.caCertPem :=
      Map.get_insert_self _ _ _
    have hother : ∀ key, key ≠ cm₀.targetKey →
        (cm₀.patch ca).data.get key = cm₀.data.get key := fun key hne => Map.get_insert_ne _ hne
    constructor
    · intro hall key hkey
      by_cases hne : key = cm₀.targetKey
      · exact Or.inr ⟨hne, hne ▸ hblank⟩
      · exact Or.inl (hother key hne ▸ hall key hkey)
    · intro hready key hkey
      by_cases hne : key = cm₀.targetKey
      · rw [hne, htarget]
      · rw [hother key hne]
        rcases hready key hkey with h | ⟨h, -⟩
        · exact h
        · exact absurd h hne

/-- **When the trust relation holds.**  After a run that leaves the cluster quiet, the requested
keys hold the certificate of the CA that signed the serving certificates exactly when no Service
asks for a serving certificate, or every ConfigMap was ready for the CA of the latest start as that
start received it. -/
theorem ca_keys_hold_iff (run : List Input) {ca : CaState}
    (hca : (cluster.exec Cluster.init run).ca = some ca)
    (hquiet : Quiet (cluster.exec Cluster.init run)) :
    CaKeysHold (cluster.exec Cluster.init run) ↔
      (∀ key svc, (cluster.exec Cluster.init run).services.get key = some svc →
        svc.secretKey = none) ∨
      ∀ k cm, (received (cluster.trace Cluster.init run)).get k = some cm → Ready ca cm := by
  have hsvcs := serviceInv run
  have hcms := configMapInv run
  generalize cluster.exec Cluster.init run = s at hca hquiet hsvcs hcms ⊢
  generalize received (cluster.trace Cluster.init run) = base at hcms ⊢
  -- a ConfigMap holds the certificate in its keys exactly when the received one was ready
  have hready : ∀ k cm₀ cm, s.configMaps.get k = some cm → Evolved s.ca cm₀ cm →
      ((∀ key ∈ cm.requested, cm.data.get key = some ca.caCertPem) ↔ Ready ca cm₀) := by
    intro k cm₀ cm hcm hevolved
    exact holds_iff_ready (hca ▸ hevolved) (hcms.filled ca k cm hca hcm (hquiet.2 k cm hcm))
  constructor
  · intro hhold
    by_cases hnone : ∀ key svc, s.services.get key = some svc → svc.secretKey = none
    · exact Or.inl hnone
    · -- some Service asks for a certificate; in a quiet cluster it has one
      push Not at hnone
      obtain ⟨key, svc, hsvc, hsome⟩ := hnone
      obtain ⟨k', hk'⟩ := Option.ne_none_iff_exists'.mp hsome
      obtain ⟨secret, hsecret, -⟩ := hsvcs.current ca key svc k' hca hsvc hk' (hquiet.1 key svc hsvc)
      obtain ⟨crt, keyPem, hdata, -⟩ := hsvcs.marked k' secret hsecret
      refine Or.inr fun k cm₀ hcm₀ => ?_
      obtain ⟨cm, hcm, hevolved⟩ := rel_some_left (hcms.evolved k) hcm₀
      refine (hready k cm₀ cm hcm hevolved).mp fun name hname => ?_
      rw [← issuer_of_quiet hsvcs hquiet hca hsecret hdata]
      exact hhold k cm hcm name hname k' secret crt keyPem hsecret hdata
  · rintro hcond k cm hcm name hname k' secret crt keyPem hsecret hdata
    rw [issuer_of_quiet hsvcs hquiet hca hsecret hdata]
    rcases hcond with hnone | hall
    · obtain ⟨key, svc, hsvc, hk⟩ := hsvcs.asked k' secret hsecret
      rw [hnone key svc hsvc] at hk
      cases hk
    · obtain ⟨cm₀, hcm₀, hevolved⟩ := rel_some_right (hcms.evolved k) hcm
      exact (hready k cm₀ cm hcm hevolved).mpr (hall k cm₀ hcm₀) name hname

/-! ### One Service, one ConfigMap, two starts -/

/-- A Service that asks for a serving certificate. -/
def webService : Service :=
  ⟨"shop", "web", "uid-1", Map.ofPairs [(servingCertAnnotationName, "web-tls")]⟩

/-- A ConfigMap that asks for the trusted bundle. -/
def trustMap : ConfigMap :=
  ⟨"shop", "trust", Map.empty, Map.ofPairs [(injectTrustedLabel, "true")], Map.empty⟩

/-- The first start: both are created and worked off; the patch queues the ConfigMap once more. -/
def firstStart : List Input :=
  [.start ⟨"cert-1", "key-1"⟩, .createService webService, .createConfigMap trustMap,
    .reconcileService ("shop", "web") ⟨true, true, some "k1", true⟩,
    .reconcileConfigmap ("shop", "trust") true, .reconcileConfigmap ("shop", "trust") true]

/-- The second start, with another CA, works off the same objects. -/
def secondStart : List Input :=
  firstStart ++ [.start ⟨"cert-2", "key-2"⟩,
    .reconcileService ("shop", "web") ⟨true, true, some "k2", true⟩,
    .reconcileConfigmap ("shop", "trust") true]

/-- A cluster with these two objects is quiet when they are off the queues. -/
theorem quiet_of_two {s : Cluster} {cms : Map Key ConfigMap} {svc : Service} {cm : ConfigMap}
    {key k : Key} (hsvcs : s.services = Map.empty.insert key svc)
    (hcms : s.configMaps = cms.insert k cm) (hk : ∀ k', k' ≠ k → cms.get k' = none)
    (hq : s.queuedServices key = false) (hq' : s.queuedConfigMaps k = false) : Quiet s := by
  constructor
  · intro key' svc' h
    rw [hsvcs] at h
    rcases Map.get_insert_eq_some.mp h with ⟨rfl, -⟩ | ⟨-, h⟩
    · exact hq
    · cases h
  · intro k' cm' h
    rw [hcms] at h
    rcases Map.get_insert_eq_some.mp h with ⟨rfl, -⟩ | ⟨hne, h⟩
    · exact hq'
    · rw [hk k' hne] at h
      cases h

theorem quiet_firstStart : Quiet (cluster.exec Cluster.init firstStart) := by
  refine quiet_of_two rfl rfl (fun k' hne => ?_) (by decide +kernel) (by decide +kernel)
  exact (Map.get_insert_ne _ hne).trans (Map.get_insert_ne _ hne)

theorem quiet_secondStart : Quiet (cluster.exec Cluster.init secondStart) := by
  refine quiet_of_two rfl rfl (fun k' hne => ?_) (by decide +kernel) (by decide +kernel)
  exact (Map.get_insert_ne _ hne).trans
    ((Map.get_insert_ne _ hne).trans (Map.get_insert_ne _ hne))

/-- After the first start the ConfigMap holds what the Secret's certificate was signed with. -/
theorem ca_keys_hold_iff_firstStart : Quiet (cluster.exec Cluster.init firstStart) ∧
    CaKeysHold (cluster.exec Cluster.init firstStart) := by
  refine ⟨quiet_firstStart, (ca_keys_hold_iff firstStart rfl quiet_firstStart).mpr (Or.inr ?_)⟩
  intro k cm hcm key hkey
  -- the start received the ConfigMap as it was created, with nothing in it
  have hget : (Map.empty.insert trustMap.key trustMap).get k = some cm := hcm
  rcases Map.get_insert_eq_some.mp hget with ⟨-, rfl⟩ | ⟨-, h⟩
  · have hall : ∀ key ∈ trustMap.requested,
        key = trustMap.targetKey ∧ trustMap.filled key = false := by
      decide +kernel
    exact Or.inr (hall key hkey)
  · cases h

/-- After the second start the Secret is signed by the new CA, and the ConfigMap still holds the
certificate of the old one. -/
theorem ca_keys_stale_secondStart : Quiet (cluster.exec Cluster.init secondStart) ∧
    ¬ CaKeysHold (cluster.exec Cluster.init secondStart) := by
  refine ⟨quiet_secondStart, fun hhold => ?_⟩
  have hkey : some "cert-1" = some "cert-2" :=
    hhold ("shop", "trust") _ rfl trustedCaKey (by decide +kernel) ("shop", "web-tls") _ _ _ rfl rfl
  revert hkey
  decide

end Picoshift.ServiceCa
