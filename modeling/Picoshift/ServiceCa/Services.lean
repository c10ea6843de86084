/-
# The service CA: Services that come, go and change their minds

`reconcile_service` keeps a Secret that bears the fingerprint of the current CA, whoever it was made
for.  As long as a Secret's name belongs to one Service this is right.  But Services are annotated
anew and deleted, and a name that one Service gives up may be taken by another: the second Service
then finds a Secret of the current CA, is content, and serves a certificate for the FIRST one's name.

The machine here has every way in which Services change, starts with a new CA, reconciles in any
order, and the collector of the API server, which removes a Secret some time after its owner is gone.
`Served` is what should hold at every moment of those Services that have been reconciled.  It does in
exactly those runs in which no reconcile finds a Secret of the current CA that another Service owns,
and the collector takes none that a reconciled Service relies on (`services_served_iff`).  That holds
in particular where no two Services name the same Secret and none leaves the one it has
(`annotated_served`).
-/
import Mathlib.Logic.Function.Basic
import Picoshift.Lib.Machine
import Picoshift.ServiceCa.Reconcile

namespace Picoshift.ServiceCa.Services

/-! ## 1. The machine -/

/-- The CA of the running simulator, the objects, and which Services have been reconciled under this
CA as they are now. -/
structure Site where
  ca : Option CaState
  services : Map Key Service
  secrets : Map Key Secret
  reconciled : Key → Bool

def Site.init : Site := ⟨none, Map.empty, Map.empty, fun _ => false⟩

/-- What can happen.  A reconcile comes with the key pair that `rcgen` makes. -/
inductive Input where
  | start (ca : CaState)
  | create (svc : Service)
  | annotate (key : Key) (annotations : Map String String)
  | delete (key : Key)
  | reconcile (key : Key) (keyPem : String)
  | collect (k : Key)

/-- The answers of a call in which nothing fails. -/
def answers (keyPem : String) : Calls := ⟨true, true, some keyPem, true⟩

/-- The owner is no longer there, or another object has its name. -/
def Site.ownerGone (s : Site) (ns : String) (o : OwnerReference) : Bool :=
  match s.services.get (ns, o.name) with
  | some svc => svc.uid != o.uid
  | none => true

/-- The collector may remove the Secret at `k`: it has owners, and all of them are gone. -/
def Site.collectable (s : Site) (k : Key) : Bool :=
  match s.secrets.get k with
  | some secret => !secret.owners.isEmpty && secret.owners.all (s.ownerGone k.1)
  | none => false

/-- The Service at `key` is replaced, and has not been reconciled as it is now. -/
def Site.put (s : Site) (key : Key) (svc : Option Service) : Site :=
  { s with
    services := match svc with
      | some svc => s.services.insert key svc
      | none => s.services.erase key
    reconciled := Function.update s.reconciled key false }

/-- One step.  What the API server refuses changes nothing. -/
def Site.step (s : Site) : Input → Site × Option Action
  | .start ca => ({ s with ca := some ca, reconciled := fun _ => false }, none)
  | .create svc =>
    match s.services.get svc.key with
    | some _ => (s, none)
    | none => (s.put svc.key (some svc), none)
  | .annotate key annotations =>
    match s.services.get key with
    | some svc => (s.put key (some { svc with annotations := annotations }), none)
    | none => (s, none)
  | .delete key => (s.put key none, none)
  | .reconcile key keyPem =>
    match s.ca, s.services.get key with
    | some ca, some svc =>
      let (secrets, action) := reconcileService ca svc (answers keyPem) s.secrets
      ({ s with
          secrets := secrets
          reconciled := Function.update s.reconciled key true }, some action)
    | _, _ => (s, none)
  | .collect k =>
    if s.collectable k then ({ s with secrets := s.secrets.erase k }, none) else (s, none)

/-- The site as a machine. -/
def site : Machine Site Input (Option Action) := ⟨Site.step⟩

/-! ## 2. What should hold -/

/-- `{service}.{namespace}.svc`. -/
def servingName (svc : Service) : String := svc.name ++ "." ++ svc.ns ++ ".svc"

/-- The Secret at `k` holds a certificate of the CA for this Service. -/
def Serves (ca : CaState) (svc : Service) (secrets : Map Key Secret) (k : Key) : Prop :=
  ∃ secret crt keyPem, secrets.get k = some secret ∧ secret.data = .tls crt keyPem ∧
    crt.issuer.caCertPem = ca.caCertPem ∧ servingName svc ∈ crt.sans

/-- Every Service that has been reconciled under the current CA has the certificate it asks for. -/
def Served (s : Site) : Prop :=
  ∀ ca key svc k, s.ca = some ca → s.services.get key = some svc → svc.secretKey = some k →
    s.reconciled key = true → Serves ca svc s.secrets k

/-- Every Service has been reconciled. -/
def AllReconciled (s : Site) : Prop :=
  ∀ key svc, s.services.get key = some svc → s.reconciled key = true

/-- No two Services name the same Secret. -/
def Exclusive (s : Site) : Prop :=
  ∀ key key' svc svc' k, s.services.get key = some svc → s.services.get key' = some svc' →
    svc.secretKey = some k → svc'.secretKey = some k → key = key'

/-! ## 3. Which Secrets there are -/

/-- Every Secret was written for some Service of its namespace. -/
def Written (secrets : Map Key Secret) : Prop :=
  ∀ k secret, secrets.get k = some secret → ∃ ca svc keyPem, svc.ns = k.1 ∧
    secret = servingSecret ca svc ⟨ca, servingNames svc, keyPem⟩ keyPem

/-- A certificate has the name of exactly the Service it was made for. -/
theorem servingName_mem_iff {svc svc' : Service} (h : svc.ns = svc'.ns) :
    servingName svc ∈ servingNames svc' ↔ svc.name = svc'.name := by
  have hlocal : servingName svc ≠ servingName svc' ++ ".cluster.local" := by
    intro heq
    have hc : (servingName svc).toList.getLast? = some 'c' := by
      rw [servingName, String.toList_append, List.getLast?_append]
      rfl
    have hl : (servingName svc' ++ ".cluster.local").toList.getLast? = some 'l' := by
      rw [String.toList_append, List.getLast?_append]
      rfl
    rw [heq, hl] at hc
    exact absurd hc (by decide)
  constructor
  · intro hmem
    rcases List.mem_pair.mp hmem with heq | heq
    · simpa [servingName, h] using heq
    · exact absurd heq hlocal
  · intro hname
    refine List.mem_pair.mpr (Or.inl ?_)
    rw [servingName, hname, h]

theorem ns_of_secretKey {svc : Service} {k : Key} (h : svc.secretKey = some k) : svc.ns = k.1 := by
  obtain ⟨secretName, -, rfl⟩ := Option.map_eq_some_iff.mp h
  rfl

theorem marked_servingSecret_iff {ca ca' : CaState} {svc : Service} {crt : Cert} {keyPem : String} :
    (servingSecret ca' svc crt keyPem).Marked ca ↔ ca'.caCertPem = ca.caCertPem := by
  have hget : (servingSecret ca' svc crt keyPem).annotations.get fingerprintAnnotationName =
      some (caBundleBase64 ca') := Map.get_insert_self _ _ _
  rw [Secret.Marked, hget, Option.some.injEq]
  exact ⟨caCertPem_eq_of_caBundleBase64, fun h => by rw [caBundleBase64, caBundleBase64, h]⟩

/-- **What a Secret serves can be read off it**: it bears the fingerprint of the CA, and the Service
owns it. -/
theorem serves_iff {secrets : Map Key Secret} (hwritten : Written secrets) {ca : CaState}
    {svc : Service} {k : Key} (hk : svc.secretKey = some k) : Serves ca svc secrets k ↔
      ∃ secret, secrets.get k = some secret ∧ secret.Marked ca ∧
        ∃ o ∈ secret.owners, o.name = svc.name := by
  constructor
  · rintro ⟨secret, crt, keyPem, hget, hdata, hissuer, hname⟩
    obtain ⟨ca', svc', keyPem', hns, rfl⟩ := hwritten k secret hget
    cases hdata
    refine ⟨_, hget, marked_servingSecret_iff.mpr hissuer, _, List.mem_singleton_self _, ?_⟩
    exact ((servingName_mem_iff ((ns_of_secretKey hk).trans hns.symm)).mp hname).symm
  · rintro ⟨secret, hget, hmarked, o, ho, hname⟩
    obtain ⟨ca', svc', keyPem, hns, rfl⟩ := hwritten k secret hget
    rw [List.mem_singleton.mp ho] at hname
    refine ⟨_, _, keyPem, hget, rfl, marked_servingSecret_iff.mp hmarked, ?_⟩
    exact (servingName_mem_iff ((ns_of_secretKey hk).trans hns.symm)).mpr hname.symm

/-- A call in which nothing fails: content with a Secret of the CA, else it writes one. -/
theorem reconcileService_answers (ca : CaState) {svc : Service} {k : Key}
    (hk : svc.secretKey = some k) (keyPem : String) (secrets : Map Key Secret) :
    (Current ca secrets k ∧ (reconcileService ca svc (answers keyPem) secrets).1 = secrets) ∨
      (¬ Current ca secrets k ∧ ∃ keyPem',
        (reconcileService ca svc (answers keyPem) secrets).1 = secrets.insert k
          (servingSecret ca svc ⟨ca, servingNames svc, keyPem'⟩ keyPem')) := by
  have hawait : (reconcileService ca svc (answers keyPem) secrets).2 = .awaitChange := by
    rw [reconcileService, hk]
    simp only [answers, Bool.true_eq_false, if_false]
    split
    · rfl
    · split <;> rfl
  have heff : SecretEffect ca svc k secrets (reconcileService ca svc (answers keyPem) secrets) :=
    reconcileService_effect hk _ _
  generalize reconcileService ca svc (answers keyPem) secrets = result at hawait heff
  cases heff with
  | failed again => exact absurd hawait again
  | kept current => exact Or.inl ⟨current, rfl⟩
  | dropped _ again => exact absurd hawait again
  | renewed keyPem' stale => exact Or.inr ⟨stale, keyPem', rfl⟩

/-! ## 4. One step -/

/-- The condition on a step.  A reconcile that finds a Secret of the current CA finds one that its
Service owns; the collector takes no Secret that a reconciled Service names. -/
def Unshared (s : Site) : Input → Prop
  | .reconcile key _ =>
    ∀ ca svc k secret, s.ca = some ca → s.services.get key = some svc → svc.secretKey = some k →
      s.secrets.get k = some secret → secret.Marked ca → ∃ o ∈ secret.owners, o.name = svc.name
  | .collect k =>
    s.collectable k = true → ∀ ca key svc, s.ca = some ca → s.services.get key = some svc →
      svc.secretKey = some k → s.reconciled key = false
  | _ => True

/-- What every state is like, and what should hold of it. -/
def Good (s : Site) : Prop := Written s.secrets ∧ Served s

/-- A Service that changes has not been reconciled; the others are as they were. -/
theorem Served.put {s : Site} (h : Served s) (key : Key) (svc : Option Service) :
    Served (s.put key svc) := by
  intro ca key' svc' k hca hsvc hk hrec
  by_cases hkey : key' = key
  · subst hkey
    simp [Site.put] at hrec
  · have hsame : s.services.get key' = some svc' := by
      cases svc with
      | some svc => exact (Map.get_insert_ne _ hkey).symm.trans hsvc
      | none => exact (Map.get_erase_ne hkey).symm.trans hsvc
    simp only [Site.put, Function.update_of_ne hkey] at hrec
    exact h ca key' svc' k hca hsame hk hrec

theorem Written.insert {secrets : Map Key Secret} (h : Written secrets) {ca : CaState}
    {svc : Service} {k : Key} (hns : svc.ns = k.1) (keyPem : String) :
    Written (secrets.insert k (servingSecret ca svc ⟨ca, servingNames svc, keyPem⟩ keyPem)) := by
  intro k' secret hget
  rcases Map.get_insert_eq_some.mp hget with ⟨rfl, rfl⟩ | ⟨-, hget⟩
  · exact ⟨ca, svc, keyPem, hns, rfl⟩
  · exact h k' secret hget

theorem Written.erase {secrets : Map Key Secret} (h : Written secrets) (k : Key) :
    Written (secrets.erase k) :=
  fun k' secret hget => h k' secret (Map.get_erase_eq_some.mp hget).2

/-- A Secret that serves is one of the current CA. -/
theorem Serves.current {secrets : Map Key Secret} (hwritten : Written secrets) {ca : CaState}
    {svc : Service} {k : Key} (hk : svc.secretKey = some k) (h : Serves ca svc secrets k) :
    Current ca secrets k := by
  obtain ⟨secret, hget, hmarked, -⟩ := (serves_iff hwritten hk).mp h
  exact ⟨secret, hget, hmarked⟩

theorem Serves.of_get_eq {secrets secrets' : Map Key Secret} {ca : CaState} {svc : Service} {k : Key}
    (hget : secrets'.get k = secrets.get k) (h : Serves ca svc secrets k) :
    Serves ca svc secrets' k := by
  obtain ⟨secret, crt, keyPem, hsecret, hrest⟩ := h
  exact ⟨secret, crt, keyPem, hget.trans hsecret, hrest⟩

/-- After a reconcile that spoils nothing, it is the reconciled Service alone that counts. -/
theorem served_reconcile_iff {s : Site} {ca : CaState} {key : Key} {svc : Service}
    (hca : s.ca = some ca) (hsvc : s.services.get key = some svc) {secrets : Map Key Secret}
    (hkeep : ∀ key' svc' k, s.services.get key' = some svc' → svc'.secretKey = some k →
      s.reconciled key' = true → Serves ca svc' secrets k) :
    Served { s with secrets := secrets, reconciled := Function.update s.reconciled key true } ↔
      ∀ k, svc.secretKey = some k → Serves ca svc secrets k := by
  constructor
  · exact fun h k hk => h ca key svc k hca hsvc hk (Function.update_self _ _ _)
  · intro h ca' key' svc' k hca' hsvc' hk hrec
    obtain rfl : ca = ca' := Option.some.inj (hca.symm.trans hca')
    by_cases hkey : key' = key
    · subst hkey
      obtain rfl : svc = svc' := Option.some.inj (hsvc.symm.trans hsvc')
      exact h k hk
    · simp only [Function.update_of_ne hkey] at hrec
      exact hkeep key' svc' k hsvc' hk hrec

theorem Written.reconcile {secrets : Map Key Secret} (h : Written secrets) (ca : CaState)
    (svc : Service) (keyPem : String) :
    Written (reconcileService ca svc (answers keyPem) secrets).1 := by
  cases hk : svc.secretKey with
  | none =>
    rw [reconcileService, hk]
    exact h
  | some k =>
    rcases reconcileService_answers ca hk keyPem secrets with ⟨-, hsame⟩ | ⟨-, keyPem', hnew⟩
    · rw [hsame]
      exact h
    · rw [hnew]
      exact h.insert (ns_of_secretKey hk) keyPem'

/-- A reconcile spoils no Secret that serves a Service. -/
theorem Serves.reconcile {secrets : Map Key Secret} (hwritten : Written secrets) {ca : CaState}
    {svc' : Service} {k' : Key} (hk' : svc'.secretKey = some k') (h : Serves ca svc' secrets k')
    (svc : Service) (keyPem : String) :
    Serves ca svc' (reconcileService ca svc (answers keyPem) secrets).1 k' := by
  cases hk : svc.secretKey with
  | none =>
    rw [reconcileService, hk]
    exact h
  | some k =>
    rcases reconcileService_answers ca hk keyPem secrets with ⟨-, hsame⟩ | ⟨hstale, keyPem', hnew⟩
    · rw [hsame]
      exact h
    · have hne : k' ≠ k := fun e => hstale (e ▸ h.current hwritten hk')
      rw [hnew]
      exact h.of_get_eq (Map.get_insert_ne _ hne)

/-- After its reconcile a Service is served unless it found a Secret of the CA that it does not
own. -/
theorem serves_reconcile_iff {secrets : Map Key Secret} (hwritten : Written secrets) (ca : CaState)
    {svc : Service} {k : Key} (hk : svc.secretKey = some k) (keyPem : String) :
    Serves ca svc (reconcileService ca svc (answers keyPem) secrets).1 k ↔
      ∀ secret, secrets.get k = some secret → secret.Marked ca →
        ∃ o ∈ secret.owners, o.name = svc.name := by
  rw [serves_iff (hwritten.reconcile ca svc keyPem) hk]
  rcases reconcileService_answers ca hk keyPem secrets with
    ⟨⟨secret, hget, hmarked⟩, hsame⟩ | ⟨hstale, keyPem', hnew⟩
  · -- it keeps what it finds
    rw [hsame]
    constructor
    · rintro ⟨secret', hget', -, howner⟩ secret'' hget'' -
      cases hget'.symm.trans hget''
      exact howner
    · exact fun howner => ⟨secret, hget, hmarked, howner secret hget hmarked⟩
  · -- it writes a Secret of its own
    rw [hnew]
    refine iff_of_true ?_ fun secret hget hmarked => absurd ⟨secret, hget, hmarked⟩ hstale
    exact ⟨_, Map.get_insert_self _ _ _, marked_servingSecret_iff.mpr rfl, _,
      List.mem_singleton_self _, rfl⟩

/-- What the condition asks of a reconcile, at the Secret that the Service names. -/
theorem unshared_reconcile_iff {s : Site} {ca : CaState} {key : Key} {svc : Service}
    (hca : s.ca = some ca) (hsvc : s.services.get key = some svc) (keyPem : String) :
    Unshared s (.reconcile key keyPem) ↔ ∀ k, svc.secretKey = some k → ∀ secret,
      s.secrets.get k = some secret → secret.Marked ca → ∃ o ∈ secret.owners, o.name = svc.name := by
  constructor
  · exact fun h k hk secret => h ca svc k secret hca hsvc hk
  · intro h ca' svc' k secret hca' hsvc' hk
    obtain rfl : ca = ca' := Option.some.inj (hca.symm.trans hca')
    obtain rfl : svc = svc' := Option.some.inj (hsvc.symm.trans hsvc')
    exact h k hk secret

/-- A reconcile of the Service at `key`. -/
theorem good_reconcile_iff {s : Site} (h : Good s) {ca : CaState} {key : Key} {svc : Service}
    (hca : s.ca = some ca) (hsvc : s.services.get key = some svc) (keyPem : String) :
    Good { s with
        secrets := (reconcileService ca svc (answers keyPem) s.secrets).1
        reconciled := Function.update s.reconciled key true } ↔
      Unshared s (.reconcile key keyPem) := by
  obtain ⟨hwritten, hserved⟩ := h
  have hkeep : ∀ key' svc' k, s.services.get key' = some svc' → svc'.secretKey = some k →
      s.reconciled key' = true →
        Serves ca svc' (reconcileService ca svc (answers keyPem) s.secrets).1 k := by
    intro key' svc' k hsvc' hk hrec
    exact (hserved ca key' svc' k hca hsvc' hk hrec).reconcile hwritten hk svc keyPem
  rw [Good, and_iff_right (hwritten.reconcile ca svc keyPem), served_reconcile_iff hca hsvc hkeep,
    unshared_reconcile_iff hca hsvc]
  exact forall_congr' fun k => forall_congr' fun hk => serves_reconcile_iff hwritten ca hk keyPem

/-- The collector removes the Secret at `k`. -/
theorem good_collect_iff {s : Site} (h : Good s) (k : Key) :
    Good (s.step (.collect k)).1 ↔ Unshared s (.collect k) := by
  obtain ⟨hwritten, hserved⟩ := h
  rw [Site.step, Unshared]
  split
  · rename_i hcollect
    constructor
    · rintro ⟨-, hafter⟩ - ca key svc hca hsvc hk
      rw [← Bool.not_eq_true]
      intro hrec
      obtain ⟨secret, -, -, hget, -⟩ := hafter ca key svc k hca hsvc hk hrec
      rw [Map.get_erase_self] at hget
      cases hget
    · intro hfree
      refine ⟨hwritten.erase k, fun ca key svc k' hca hsvc hk hrec => ?_⟩
      have hne : k' ≠ k := by
        rintro rfl
        have hno := hfree hcollect ca key svc hca hsvc hk
        rw [hno] at hrec
        cases hrec
      exact (hserved ca key svc k' hca hsvc hk hrec).of_get_eq (Map.get_erase_ne hne)
  · rename_i hcollect
    exact iff_of_true ⟨hwritten, hserved⟩ fun h => absurd h hcollect

/-- **One step, exactly**: a good state stays good when the step is unshared, and only then. -/
theorem good_step_iff {s : Site} (h : Good s) (i : Input) :
    Good (site.step s i).1 ↔ Unshared s i := by
  cases i with
  | start ca =>
    refine iff_of_true ⟨h.1, fun ca' key svc k _ _ _ hrec => ?_⟩ trivial
    cases hrec
  | create svc =>
    refine iff_of_true ?_ trivial
    simp only [site, Site.step]
    split
    · exact h
    · exact ⟨h.1, h.2.put svc.key (some svc)⟩
  | annotate key annotations =>
    refine iff_of_true ?_ trivial
    simp only [site, Site.step]
    split
    · exact ⟨h.1, h.2.put key _⟩
    · exact h
  | delete key => exact iff_of_true ⟨h.1, h.2.put key none⟩ trivial
  | reconcile key keyPem =>
    simp only [site, Site.step]
    split
    · rename_i ca svc hca hsvc
      exact good_reconcile_iff h hca hsvc keyPem
    · rename_i hnot
      exact iff_of_true h fun ca svc k secret hca hsvc => absurd hsvc (hnot ca svc hca)
  | collect k => exact good_collect_iff h k

theorem good_init : Good Site.init :=
  ⟨fun k secret h => absurd h (by simp [Site.init]), fun ca key svc k hca => by cases hca⟩

/-! ## 5. Whole runs -/

theorem written_step (s : Site) (i : Input) (h : Written s.secrets) :
    Written (site.step s i).1.secrets := by
  cases i with
  | start ca => exact h
  | create svc =>
    simp only [site, Site.step]
    split <;> exact h
  | annotate key annotations =>
    simp only [site, Site.step]
    split <;> exact h
  | delete key => exact h
  | reconcile key keyPem =>
    simp only [site, Site.step]
    split
    · rename_i ca svc hca hsvc
      exact h.reconcile ca svc keyPem
    · exact h
  | collect k =>
    simp only [site, Site.step]
    split
    · exact h.erase k
    · exact h

/-- Every state has only Secrets that were written for a Service. -/
theorem written (run : List Input) : Written (site.exec Site.init run).secrets :=
  site.invariant (P := fun s => Written s.secrets) good_init.1 written_step run

/-- **The exact condition.**  At every moment of a run every Service that has been reconciled under
the current CA has a certificate of this CA with its own name, exactly when every step of the run is
unshared. -/
theorem services_served_iff (run : List Input) :
    (∀ n, Served (site.exec Site.init (run.take n))) ↔
      ∀ e ∈ site.trace Site.init run, Unshared e.before e.input := by
  have hrule := site.forall_take_iff (P := Good) (fun _ i h => good_step_iff h i) good_init run
  rw [← hrule]
  exact forall_congr' fun n => ⟨fun h => ⟨written _, h⟩, fun h => h.2⟩

/-! ### Names that stay with their Services -/

/-- A Service is found under its own namespace and name. -/
def Keyed (services : Map Key Service) : Prop := ∀ key svc, services.get key = some svc → svc.key = key

/-- Every Secret of the current CA is owned by a Service that is still there and still names it.  This is what
`handOver` below breaks: blue owns the Secret after it has given up its name. -/
def Held (s : Site) : Prop :=
  ∀ ca k secret, s.ca = some ca → s.secrets.get k = some secret → secret.Marked ca →
    ∃ o ∈ secret.owners, ∃ svc, s.services.get (k.1, o.name) = some svc ∧ svc.uid = o.uid ∧
      svc.secretKey = some k

/-- All along a run no two Services name the same Secret, and none leaves the one it has. -/
def Settled (h : List (Entry Site Input (Option Action))) : Prop := ∀ e ∈ h, Exclusive e.before ∧ Held e.before

theorem Keyed.insert {services : Map Key Service} (h : Keyed services) (svc : Service) :
    Keyed (services.insert svc.key svc) := by
  intro key svc' hget
  rcases Map.get_insert_eq_some.mp hget with ⟨rfl, rfl⟩ | ⟨-, hget⟩
  · rfl
  · exact h key svc' hget

theorem keyed_step (s : Site) (i : Input) (h : Keyed s.services) : Keyed (site.step s i).1.services := by
  cases i with
  | start ca => exact h
  | create svc =>
    simp only [site, Site.step]
    split
    · exact h
    · exact h.insert svc
  | annotate key annotations =>
    simp only [site, Site.step]
    split
    · rename_i svc hsvc
      have hkey : { svc with annotations := annotations }.key = key := h key svc hsvc
      rw [← hkey]
      exact h.insert { svc with annotations := annotations }
    · exact h
  | delete key => exact fun key' svc hget => h key' svc (Map.get_erase_eq_some.mp hget).2
  | reconcile key keyPem =>
    simp only [site, Site.step]
    split <;> exact h
  | collect k =>
    simp only [site, Site.step]
    split <;> exact h

/-- Where no two Services name the same Secret and each Secret is still with its owner, nothing that can happen is
shared.  A reconcile finds its own Secret, because the owner names it and nobody else does; and the collector finds
nothing to take from a reconciled Service, because the owner is there. -/
theorem unshared_of_held {s : Site} (hkeyed : Keyed s.services) (hgood : Good s) (hexclusive : Exclusive s)
    (hheld : Held s) (i : Input) : Unshared s i := by
  cases i with
  | reconcile key keyPem =>
    intro ca svc k secret hca hsvc hk hget hmarked
    obtain ⟨o, ho, svc', hsvc', -, hk'⟩ := hheld ca k secret hca hget hmarked
    obtain rfl := hexclusive key _ svc svc' k hsvc hsvc' hk hk'
    exact ⟨o, ho, (congrArg Prod.snd (hkeyed _ svc hsvc)).symm⟩
  | collect k =>
    intro hcollect ca key svc hca hsvc hk
    rw [← Bool.not_eq_true]
    intro hrec
    obtain ⟨secret, hget, hmarked, -⟩ := (serves_iff hgood.1 hk).mp (hgood.2 ca key svc k hca hsvc hk hrec)
    obtain ⟨o, ho, svc', hsvc', huid, -⟩ := hheld ca k secret hca hget hmarked
    simp only [Site.collectable, hget, Bool.and_eq_true, List.all_eq_true] at hcollect
    simpa [Site.ownerGone, hsvc', huid] using hcollect.2 o ho
  | start ca => trivial
  | create svc => trivial
  | annotate key annotations => trivial
  | delete key => trivial

/-- **Every annotated Service is served.**  In a run in which no two Services name the same Secret and no Secret is left
by its owner, once all Services have been reconciled each one that asks for a certificate has one, of the current CA
and with its own name. -/
theorem annotated_served {run : List Input} (hrun : Settled (site.trace Site.init run))
    (hall : AllReconciled (site.exec Site.init run)) {ca : CaState} (hca : (site.exec Site.init run).ca = some ca)
    {key : Key} {svc : Service} (hsvc : (site.exec Site.init run).services.get key = some svc) {k : Key}
    (hk : svc.secretKey = some k) : Serves ca svc (site.exec Site.init run).secrets k := by
  have hinit : Keyed Site.init.services ∧ Good Site.init := by
    refine ⟨fun key svc h => ?_, good_init⟩
    cases h
  have hshorter : ∀ h e, Settled (h ++ [e]) → Settled h := fun h e hOk e' he' => hOk e' (List.mem_append_left _ he')
  have hgood : Keyed (site.exec Site.init run).services ∧ Good (site.exec Site.init run) := by
    refine site.run_induction (P := fun _ s => Keyed s.services ∧ Good s) hshorter hinit ?_ run hrun
    intro h s i ⟨hkeyed, hgood⟩ hOk
    have hlast : Exclusive s ∧ Held s := hOk (site.entry s i) (List.mem_append_right _ (List.mem_singleton_self _))
    exact ⟨keyed_step s i hkeyed, (good_step_iff hgood i).mpr (unshared_of_held hkeyed hgood hlast.1 hlast.2 i)⟩
  exact hgood.2.2 ca key svc k hca hsvc hk (hall key svc hsvc)

/-! ### A name that changes hands -/

/-- A Service of the namespace `shop` with these annotations. -/
def shopService (name : String) (annotations : Map String String) : Service :=
  ⟨"shop", name, "uid-" ++ name, annotations⟩

/-- The annotation that asks for the Secret `tls`. -/
def asksForTls : Map String String := Map.ofPairs [(servingCertAnnotationName, "tls")]

/-- Blue asks for the Secret and gets it, and gives it up; green asks for it; both are
reconciled. -/
def handOver : List Input :=
  [.start ⟨"cert", "key"⟩, .create (shopService "blue" asksForTls), .reconcile ("shop", "blue") "k1",
    .annotate ("shop", "blue") Map.empty, .create (shopService "green" asksForTls),
    .reconcile ("shop", "blue") "k2", .reconcile ("shop", "green") "k3"]

/-- Where one Service may ask and no other does, no two name the same Secret. -/
theorem exclusive_of_insert {s : Site} {m : Map Key Service} {key : Key} {svc : Service}
    (hs : s.services = m.insert key svc)
    (hm : ∀ key' svc', key' ≠ key → m.get key' = some svc' → svc'.secretKey = none) :
    Exclusive s := by
  have hone : ∀ key' svc' k, s.services.get key' = some svc' → svc'.secretKey = some k →
      key' = key := by
    intro key' svc' k hsvc' hk
    rw [hs] at hsvc'
    rcases Map.get_insert_eq_some.mp hsvc' with ⟨rfl, -⟩ | ⟨hne, hsvc'⟩
    · rfl
    · rw [hm key' svc' hne hsvc'] at hk
      cases hk
  intro key₁ key₂ svc₁ svc₂ k h₁ h₂ hk₁ hk₂
  rw [hone key₁ svc₁ k h₁ hk₁, hone key₂ svc₂ k h₂ hk₂]

/-- At no time do two Services name the Secret, in the end both are reconciled under the one CA there
was, and the Secret that green names does not have green's name. -/
theorem services_served_handOver :
    (∀ e ∈ site.trace Site.init handOver, Exclusive e.after) ∧
      AllReconciled (site.exec Site.init handOver) ∧ ¬ Served (site.exec Site.init handOver) := by
  refine ⟨?_, ?_, fun hserved => ?_⟩
  · have hblue : ∀ key' svc', key' ≠ ("shop", "green") →
        ((Map.empty.insert ("shop", "blue") (shopService "blue" asksForTls)).insert ("shop", "blue")
          (shopService "blue" Map.empty)).get key' = some svc' → svc'.secretKey = none := by
      intro key' svc' _ h
      rcases Map.get_insert_eq_some.mp h with ⟨-, rfl⟩ | ⟨hne, h⟩
      · rfl
      · rw [Map.get_insert_ne _ hne] at h
        cases h
    simp only [handOver, Machine.trace, List.forall_mem_cons]
    refine ⟨?_, ?_, ?_, ?_, ?_, ?_, ?_, fun e he => absurd he List.not_mem_nil⟩
    · exact fun key _ svc _ _ h => by cases h
    · exact exclusive_of_insert rfl fun _ _ _ h => by cases h
    · exact exclusive_of_insert rfl fun _ _ _ h => by cases h
    · refine exclusive_of_insert rfl fun key' svc' hne h => ?_
      have hnone := (Map.get_insert_ne _ hne).symm.trans h
      cases hnone
    · exact exclusive_of_insert rfl hblue
    · exact exclusive_of_insert rfl hblue
    · exact exclusive_of_insert rfl hblue
  · intro key svc hsvc
    rcases Map.get_insert_eq_some.mp hsvc with ⟨rfl, -⟩ | ⟨-, hsvc⟩
    · rfl
    · rcases Map.get_insert_eq_some.mp hsvc with ⟨rfl, -⟩ | ⟨hne, hsvc⟩
      · decide +kernel
      · have hnone := (Map.get_insert_ne _ hne).symm.trans hsvc
        cases hnone
  · obtain ⟨secret, crt, keyPem, hget, hdata, -, hname⟩ :=
      hserved _ ("shop", "green") _ ("shop", "tls") rfl rfl rfl rfl
    cases hget
    cases hdata
    exact absurd hname (by decide +kernel)

end Picoshift.ServiceCa.Services
