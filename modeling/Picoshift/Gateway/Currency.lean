/-
# When Envoy's configuration is up to date

Every reconcile writes the whole configuration from what IT has read: the routes first, then the DestinationRules, then
the write.  Nothing keeps two of them apart.

* After the objects have stopped changing, the first reconcile that started since then and succeeds makes the
  configuration current, and it stays so whatever the others do (`current_after_quiet`).  Two things have to be
  assumed.  The DestinationRules can be listed: a reconcile for which they cannot writes a configuration without TLS
  and reports success.  And no Gateway is reconciled with another hostname, be it a second one of the class or an old
  version of the first: such a reconcile writes its own hostname.
* A reconcile that started BEFORE the last change can come last, with the routes of before.  Then all is quiet, every
  reconcile has succeeded, and the change is not in the configuration (`stale_sync_wins`).
-/
import Picoshift.Gateway.Controllers

namespace Picoshift.Gateway

open Proxy (DynamicObject)

/-! ## 1. The configuration of the moment -/

/-- The hostname of the Gateway. -/
def hostnameNow (s : Objects) : String :=
  ((s.gateways.get (gatewayNs, gatewayName)).bind extractListenerHostname).getD ""

/-- The files for the objects as they are. -/
def currentFiles (s : Objects) : List (String × String) :=
  xdsFiles (hostnameNow s) (attachedRules s.routes)
    ((s.destinationRules.filter fun dr => dr.ns = some gatewayNs).flatMap extractTlsPorts)

/-- The ConfigMap holds these files. -/
def HoldsFiles (files : List (String × String)) (s : Objects) : Prop :=
  ∃ data, s.configMaps.get (gatewayNs, "envoy-xds-config") = some data ∧
    ∀ file ∈ files, data.get file.1 = some file.2

/-- The configuration is that of the objects. -/
def Current (s : Objects) : Prop := HoldsFiles (currentFiles s) s

/-- Nothing changes of what a configuration is made from, and a current one stays current. -/
structure Quiet (s s' : Objects) : Prop where
  routes : s'.routes = s.routes
  destinationRules : s'.destinationRules = s.destinationRules
  hostname : hostnameNow s' = hostnameNow s
  current : Current s → Current s'

theorem Quiet.refl (s : Objects) : Quiet s s := ⟨rfl, rfl, rfl, id⟩

theorem Quiet.trans ⦃a b c : Objects⦄ (h : Quiet a b) (h' : Quiet b c) : Quiet a c :=
  ⟨h'.routes.trans h.routes, h'.destinationRules.trans h.destinationRules, h'.hostname.trans h.hostname,
    fun hc => h'.current (h.current hc)⟩

theorem Quiet.currentFiles {s s' : Objects} (h : Quiet s s') : currentFiles s' = Gateway.currentFiles s := by
  rw [Gateway.currentFiles, h.routes, h.destinationRules, h.hostname, Gateway.currentFiles]

/-! ## 2. The requests keep quiet -/

/-- A write to anything but the configuration. -/
theorem quiet_of_eq {s s' : Objects} (hroutes : s'.routes = s.routes)
    (hrules : s'.destinationRules = s.destinationRules) (hhostname : hostnameNow s' = hostnameNow s)
    (hconfig : ∀ data, s.configMaps.get (gatewayNs, "envoy-xds-config") = some data →
      s'.configMaps.get (gatewayNs, "envoy-xds-config") = some data) : Quiet s s' := by
  have hfiles : currentFiles s' = currentFiles s := by
    rw [currentFiles, hroutes, hrules, hhostname, currentFiles]
  refine ⟨hroutes, hrules, hhostname, ?_⟩
  rintro ⟨data, hdata, hcurrent⟩
  exact ⟨data, hconfig data hdata, hfiles ▸ hcurrent⟩

/-- A status has no say in the hostname. -/
theorem extractListenerHostname_withStatus (status : Json) (gw : DynamicObject) :
    extractListenerHostname (withStatus status gw) = extractListenerHostname gw := by
  have hspec : (withStatus status gw).data.get "spec" = gw.data.get "spec" :=
    Json.get_merge_of_not_mem (by simp) gw.data
  simp only [extractListenerHostname, hspec]

theorem hostnameNow_patchGatewayStatus (s : Objects) (key : ObjectName) (status : Json) :
    hostnameNow (apply s (.patchGatewayStatus key status)).1 = hostnameNow s := by
  have hgateway : (apply s (.patchGatewayStatus key status)).1.gateways.get (gatewayNs, gatewayName) =
      if (gatewayNs, gatewayName) = key then
        (s.gateways.get (gatewayNs, gatewayName)).map (withStatus status)
      else s.gateways.get (gatewayNs, gatewayName) := by
    split
    · rename_i hkey
      rw [← hkey]
      exact get_update_self _ _ _
    · rename_i hkey
      exact get_update_ne hkey _
  rw [hostnameNow, hgateway, hostnameNow]
  split
  · cases s.gateways.get (gatewayNs, gatewayName) with
    | none => rfl
    | some gw =>
      rw [Option.map_some, Option.bind_some, Option.bind_some, extractListenerHostname_withStatus]
  · rfl

/-- The request is no patch of the configuration. -/
def Elsewhere : Request → Prop
  | .patchConfigMap key _ => (gatewayNs, "envoy-xds-config") ≠ key
  | _ => True

theorem quiet_apply {r : Request} (s : Objects) (h : Elsewhere r := by trivial) : Quiet s (apply s r).1 := by
  cases r with
  | createConfigMap key data =>
    refine quiet_of_eq rfl rfl rfl fun old hold => ?_
    have hkept : KeptOr (fun _ => True) (s.configMaps.get (gatewayNs, "envoy-xds-config"))
        ((create s.configMaps key data).1.get (gatewayNs, "envoy-xds-config")) := keptOr_create fun _ => trivial
    exact hkept.kept old hold
  | patchConfigMap key files =>
    refine quiet_of_eq rfl rfl rfl fun old hold => ?_
    exact (get_update_ne h _).trans hold
  | patchGatewayStatus key status =>
    exact quiet_of_eq rfl rfl (hostnameNow_patchGatewayStatus s key status) fun _ h => h
  | _ => exact quiet_of_eq rfl rfl rfl fun _ h => h

/-- The right files, written over others. -/
theorem holdsFiles_patch {s : Objects} {hostname : String} {rules : List HttpRouteRule} {tlsPorts : List UInt16}
    (h : (s.configMaps.get (gatewayNs, "envoy-xds-config")).isSome = true) :
    HoldsFiles (xdsFiles hostname rules tlsPorts)
      (apply s (.patchConfigMap (gatewayNs, "envoy-xds-config") (xdsFiles hostname rules tlsPorts))).1 := by
  obtain ⟨old, hold⟩ := Option.isSome_iff_exists.mp h
  refine ⟨old.writeAll (xdsFiles hostname rules tlsPorts), ?_, get_writeAll_xdsFiles old hostname rules tlsPorts⟩
  refine (get_update_self _ _ _).trans ?_
  rw [hold, Option.map_some]

/-- A patch with the files of the moment. -/
theorem quiet_patch {s : Objects} {files : List (String × String)} (h : files = currentFiles s) :
    Quiet s (apply s (.patchConfigMap (gatewayNs, "envoy-xds-config") files)).1 := by
  subst h
  refine ⟨rfl, rfl, rfl, ?_⟩
  rintro ⟨data, hdata, -⟩
  exact holdsFiles_patch (Option.isSome_iff_exists.mpr ⟨data, hdata⟩)

theorem quiet_serve {s : Objects} {r : Request} (h : Quiet s (apply s r).1) (fate : Fate) :
    Quiet s (apiServer.serve fate s r).1 := by
  cases fate with
  | served => exact h
  | refused => exact .refl s
  | lost => exact h

/-! ## 3. Along the programs -/

/-- The DestinationRules can be listed. -/
def rulesListed (r : Request) (fate : Fate) : Prop := ∀ ns, r = .listDestinationRules ns → fate = .served

/-- The program keeps quiet, and `P` holds for good when it succeeds. -/
abbrev Keeping {α : Type} (P : α → Objects → Prop) (p : Prog Answer (Except ApiError α)) (s : Objects) : Prop :=
  Ensures apiServer rulesListed Quiet P p s

theorem keeping_ask {r : Request} {P : Value r → Objects → Prop} {s : Objects}
    (hquiet : ∀ s', Quiet s s' → Quiet s' (apply s' r).1)
    (hP : ∀ s' v s'', (apply s' r).2 = .ok v → Quiet s s' → Quiet (apply s' r).1 s'' → P v s'') :
    Keeping P (ask r) s := by
  intro s' hs' fate _
  refine ⟨quiet_serve (hquiet s' hs') fate, fun s'' hs'' v hv => ?_⟩
  cases fate with
  | served => exact hP s' v s'' hv hs' hs''
  | refused => cases hv
  | lost => cases hv

/-- A request that has nothing to do with the configuration. -/
theorem keeping_other {r : Request} (s : Objects) (h : Elsewhere r := by trivial) :
    Keeping (fun _ _ => True) (ask r) s :=
  keeping_ask (fun s' _ => quiet_apply s' h) fun _ _ _ _ _ _ => trivial

/-- Nothing of what `createMissing` does has. -/
theorem keeping_createMissing {V : Type} {get : Prog Answer (Except ApiError (Option V))} {create : Reconciling}
    {s : Objects} (hget : Keeping (fun _ _ => True) get s)
    (hcreate : ∀ s', Keeping (fun _ _ => True) create s') :
    Keeping (fun _ _ => True) (createMissing get create) s := by
  refine hget.andThen Quiet.refl Quiet.trans fun found s' _ _ => ?_
  cases found with
  | some v => exact ensures_ok fun _ _ => trivial
  | none => exact hcreate s'

theorem keeping_ensure (ns name hostname svcName : String) (s : Objects) :
    Keeping (fun _ _ => True) (ensureEnvoyConfigmaps ns hostname) s ∧
      Keeping (fun _ _ => True) (ensureEnvoyDeployment ns name) s ∧
      Keeping (fun _ _ => True) (ensureEnvoyService ns svcName) s := by
  refine ⟨?_, ?_, ?_⟩
  · have hbootstrap : Keeping (fun _ _ => True) (createMissing (ask (.getConfigMap (ns, "envoy-bootstrap")))
        (ask (.createConfigMap (ns, "envoy-bootstrap") bootstrapData))) s :=
      keeping_createMissing (keeping_other s) fun s' => keeping_other s'
    refine hbootstrap.andThen Quiet.refl Quiet.trans fun _ s' _ _ => ?_
    exact keeping_createMissing (keeping_other s') fun s'' => keeping_other s''
  · exact keeping_createMissing (keeping_other s) fun s' => keeping_other s'
  · exact keeping_createMissing (keeping_other s) fun s' => keeping_other s'

/-- A synchronisation with the hostname of the moment makes the configuration current. -/
theorem keeping_syncConfig {hostname : String} {s : Objects} (hhostname : hostname = hostnameNow s) :
    Keeping (fun _ => Current) (syncConfig gatewayNs hostname) s := by
  have hroutes : Keeping (fun routeList s => routeList = s.routes) (ask .listRoutes) s := by
    refine keeping_ask (fun s' _ => quiet_apply s') fun s' v s'' hv _ hs'' => ?_
    cases hv
    exact hs''.routes.symm
  refine hroutes.andThen Quiet.refl Quiet.trans fun routeList s₁ h₁ hlist => ?_
  have hrules : Holds apiServer rulesListed Quiet
      (fun drList s => drList = .ok (s.destinationRules.filter fun dr => dr.ns = some gatewayNs))
      (ask (.listDestinationRules gatewayNs)) s₁ := by
    intro s' _ fate hfate
    rw [hfate gatewayNs rfl]
    refine ⟨.refl s', fun s'' hs'' => ?_⟩
    show _ = Except.ok (s''.destinationRules.filter fun dr => dr.ns = some gatewayNs)
    rw [hs''.destinationRules]
    rfl
  refine hrules.bind Quiet.refl Quiet.trans fun drList s₂ h₂ hdrList => ?_
  have hfiles : xdsFiles hostname (attachedRules routeList) ((drList.toOption.getD []).flatMap extractTlsPorts) =
      currentFiles s₂ := by
    rw [hdrList, hlist, currentFiles, h₂.hostname, h₁.hostname, h₂.routes, hhostname]
    rfl
  rw [hfiles]
  refine keeping_ask (fun s' hs' => quiet_patch hs'.currentFiles.symm) fun s' v s'' hv hs' hs'' => ?_
  -- the patch has been answered, so there is a ConfigMap
  have hsome : (s'.configMaps.get (gatewayNs, "envoy-xds-config")).isSome = true := by
    cases hget : s'.configMaps.get (gatewayNs, "envoy-xds-config") with
    | some data => rfl
    | none =>
      simp only [apply, update, hget] at hv
      cases hv
  refine hs''.current ?_
  rw [Current, ← hs'.currentFiles]
  exact holdsFiles_patch hsome

/-- One in another namespace leaves the configuration alone. -/
theorem keeping_syncConfig_ne {ns hostname : String} (hns : ns ≠ gatewayNs) (s : Objects) :
    Keeping (fun _ _ => True) (syncConfig ns hostname) s := by
  refine (keeping_other s).andThen Quiet.refl Quiet.trans fun routeList s _ _ => ?_
  have hrules : Holds apiServer rulesListed Quiet (fun _ _ => True) (ask (.listDestinationRules ns)) s :=
    fun s' _ fate _ => ⟨quiet_serve (quiet_apply s') fate, fun _ _ => trivial⟩
  refine hrules.bind Quiet.refl Quiet.trans fun drList s _ _ => keeping_other s ?_
  exact fun hkey => hns (Prod.mk.inj hkey).1.symm

/-! ## 4. After the last change -/

/-- The call writes the configuration of the Gateway. -/
def Syncs : Reconcile → Prop
  | .gatewayClass _ => False
  | .gateway gw => gw.object.ns.getD "" = gatewayNs ∧ className gw.object = gatewayClassName
  | .httproute route => referencesOurGateway route = true
  | .destinationRule _ => True

/-- The call is for an object as it is: for the configuration only the hostname of a Gateway matters. -/
def UpToDate (hostname : String) : Reconcile → Prop
  | .gateway gw => Syncs (.gateway gw) → (extractListenerHostname gw.object).getD "" = hostname
  | _ => True

theorem keeping_syncGateway (s : Objects) : Keeping (fun _ => Current) syncGateway s := by
  have hget : Keeping (fun gw s => (gw.bind extractListenerHostname).getD "" = hostnameNow s)
      (ask (.getGateway (gatewayNs, gatewayName))) s := by
    refine keeping_ask (fun s' _ => quiet_apply s') fun s' v s'' hv _ hs'' => ?_
    cases hv
    exact hs''.hostname.symm
  exact hget.andThen Quiet.refl Quiet.trans fun gw s _ hgw => keeping_syncConfig hgw

/-- A reconcile of a Gateway whose hostname is up to date. -/
theorem keeping_reconcileGateway {gw : Called} {s : Objects} (h : UpToDate (hostnameNow s) (.gateway gw)) :
    Keeping (fun _ s => Syncs (.gateway gw) → Current s) (reconcileGateway gw) s := by
  unfold reconcileGateway
  by_cases hclass : className gw.object = gatewayClassName
  · simp only [ne_eq, hclass, not_true_eq_false, if_false]
    refine (keeping_ensure _ "" _ "" s).1.andThen Quiet.refl Quiet.trans fun _ s₁ h₁ _ => ?_
    refine (keeping_ensure _ _ "" "" s₁).2.1.andThen Quiet.refl Quiet.trans fun _ s₂ h₂ _ => ?_
    refine (keeping_ensure _ "" "" _ s₂).2.2.andThen Quiet.refl Quiet.trans fun _ s₃ h₃ _ => ?_
    have hsync : Keeping (fun _ s => Syncs (.gateway gw) → Current s)
        (syncConfig (gw.object.ns.getD "") ((extractListenerHostname gw.object).getD "")) s₃ := by
      by_cases hns : gw.object.ns.getD "" = gatewayNs
      · have hhostname : (extractListenerHostname gw.object).getD "" = hostnameNow s₃ := by
          rw [h₃.hostname, h₂.hostname, h₁.hostname]
          exact h ⟨hns, hclass⟩
        rw [hns]
        exact (keeping_syncConfig hhostname).mono fun _ _ hcurrent v hv _ => hcurrent v hv
      · exact (keeping_syncConfig_ne hns s₃).mono fun _ _ _ _ _ hsyncs => absurd hsyncs.1 hns
    refine hsync.andThen Quiet.refl Quiet.trans fun _ s₄ _ hcurrent => ?_
    by_cases haccepted : isGatewayAccepted gw.object = true
    · rw [if_pos haccepted]
      exact ensures_ok fun s' hs' hsyncs => hs'.current (hcurrent hsyncs)
    · rw [if_neg haccepted]
      refine keeping_ask (fun s' _ => quiet_apply s') fun s' v s'' _ hs' hs'' hsyncs => ?_
      exact hs''.current ((quiet_apply s').current (hs'.current (hcurrent hsyncs)))
  · simp only [ne_eq, hclass, not_false_eq_true, if_true]
    exact ensures_ok fun _ _ hsyncs => absurd hsyncs.2 hclass

theorem keeping_program {call : Reconcile} {s : Objects} (h : UpToDate (hostnameNow s) call) :
    Keeping (fun _ s => Syncs call → Current s) (program call) s := by
  cases call with
  | gatewayClass gc =>
    show Keeping _ (reconcileGatewayClass gc) s
    unfold reconcileGatewayClass
    split
    · exact ensures_ok fun _ _ hsyncs => hsyncs.elim
    · exact keeping_ask (fun s' _ => quiet_apply s') fun _ _ _ _ _ _ hsyncs => hsyncs.elim
  | gateway gw => exact keeping_reconcileGateway h
  | httproute route =>
    show Keeping _ (if referencesOurGateway route then syncGateway else .done (.ok ())) s
    split
    · exact (keeping_syncGateway s).mono fun _ _ hcurrent v hv _ => hcurrent v hv
    · rename_i hreferences
      exact ensures_ok fun _ _ hsyncs => absurd hsyncs hreferences
  | destinationRule dr => exact (keeping_syncGateway s).mono fun _ _ hcurrent v hv _ => hcurrent v hv

/-- The request with which a synchronisation ends. -/
abbrev patchConfig (files : List (String × String)) : Request :=
  .patchConfigMap (gatewayNs, "envoy-xds-config") files

/-- A synchronisation when it has read the routes. -/
def routesRead (s : Objects) : Reconciling :=
  .call (.listDestinationRules gatewayNs) fun drList =>
    ask (patchConfig (xdsFiles (hostnameNow s) (attachedRules s.routes)
      ((drList.toOption.getD []).flatMap extractTlsPorts)))

theorem advance_syncGateway (s : Objects) :
    Prog.advance apiServer .served 2 (s, syncGateway) = (s, routesRead s) := rfl

/-- Two more requests, in a cluster with the same DestinationRules. -/
theorem advance_routesRead {s s' : Objects} (h : s'.destinationRules = s.destinationRules) :
    Prog.advance apiServer .served 2 (s', routesRead s) =
      ((apply s' (patchConfig (currentFiles s))).1, .done (apply s' (patchConfig (currentFiles s))).2) := by
  rw [currentFiles, ← h]
  rfl

/-- A patch of a ConfigMap that is there is answered, and it stays there. -/
theorem apply_patchConfig {s : Objects} (h : (s.configMaps.get (gatewayNs, "envoy-xds-config")).isSome = true)
    (files : List (String × String)) : (apply s (patchConfig files)).2 = .ok () ∧
      ((apply s (patchConfig files)).1.configMaps.get (gatewayNs, "envoy-xds-config")).isSome = true := by
  obtain ⟨data, hdata⟩ := Option.isSome_iff_exists.mp h
  refine ⟨by simp only [apply, update, hdata], ?_⟩
  have hget := get_update_self s.configMaps (gatewayNs, "envoy-xds-config") fun data => data.writeAll files
  rw [hdata] at hget
  exact Option.isSome_iff_exists.mpr ⟨_, hget⟩

/-- A reconcile that nothing comes in between. -/
def undisturbed (dr : DynamicObject) : List (Move Objects Fate Reconcile) :=
  .start (.destinationRule dr) :: List.replicate 4 (.serve 0 .served)

theorem exec_undisturbed {s : Objects} (h : (s.configMaps.get (gatewayNs, "envoy-xds-config")).isSome = true)
    (dr : DynamicObject) : (controllers.exec ⟨s, []⟩ (undisturbed dr)).tasks =
      [⟨.destinationRule dr, .done (.ok ())⟩] := by
  have hrun : Prog.advance apiServer .served 4 (s, syncGateway) =
      ((apply s (patchConfig (currentFiles s))).1, .done (apply s (patchConfig (currentFiles s))).2) :=
    advance_routesRead rfl
  show (controllers.exec ⟨s, [⟨.destinationRule dr, syncGateway⟩]⟩ _).tasks = _
  rw [controllers, exec_serve rfl, hrun, (apply_patchConfig h _).1]
  rfl

theorem allowed_undisturbed (s : Objects) (dr : DynamicObject) :
    ∀ e ∈ controllers.trace ⟨s, []⟩ (undisturbed dr),
      Allowed rulesListed Quiet (UpToDate (hostnameNow s)) e.before e.input := by
  intro e he
  have hinput : e.input ∈ undisturbed dr := by
    rw [← controllers.map_input_trace ⟨s, []⟩ (undisturbed dr)]
    exact List.mem_map_of_mem he
  rcases List.mem_cons.mp hinput with h | h
  · refine ⟨fun call hcall => ?_, fun i fate label r k hserve => ?_, fun f hedit => ?_⟩
    · rw [h, Move.start.injEq] at hcall
      subst hcall
      trivial
    · rw [h] at hserve
      cases hserve
    · rw [h] at hedit
      cases hedit
  · have hserved := List.eq_of_mem_replicate h
    refine ⟨fun call hcall => ?_, fun i fate label r k hserve _ ns _ => ?_, fun f hedit => ?_⟩
    · rw [hserved] at hcall
      cases hcall
    · rw [hserved, Move.serve.injEq] at hserve
      exact hserve.2.symm
    · rw [hserved] at hedit
      cases hedit

/-- **The configuration becomes current and stays so.**  In a run that starts with no reconcile under way, in which
routes, DestinationRules and hostname stay as they are, the DestinationRules can be listed and every Gateway whose
reconcile would write the configuration is called with that hostname (one with another hostname, or an old version
of the Gateway, would write its own): as soon as one reconcile that writes the configuration has succeeded, the
configuration is that of the objects, whatever the other reconciles have done or failed to do since. -/
theorem current_after_quiet {s₀ : Objects} {run : List (Move Objects Fate Reconcile)}
    (hrun : ∀ e ∈ controllers.trace ⟨s₀, []⟩ run,
      Allowed rulesListed Quiet (UpToDate (hostnameNow s₀)) e.before e.input)
    {call : Reconcile} (hcall : ⟨call, .done (.ok ())⟩ ∈ (controllers.exec ⟨s₀, []⟩ run).tasks)
    (hsyncs : Syncs call) : Current (controllers.exec ⟨s₀, []⟩ run).store := by
  have hstart : ∀ call, UpToDate (hostnameNow s₀) call → ∀ s, Quiet s₀ s →
      Holds apiServer rulesListed Quiet (fun x s => ∀ v, x = .ok v → Syncs call → Current s) (program call) s := by
    intro call hcall s hs
    exact keeping_program (hs.hostname ▸ hcall)
  obtain ⟨-, htasks⟩ := Pool.holds Quiet.refl Quiet.trans hstart hrun
  exact htasks _ hcall _ (Quiet.refl _) () rfl hsyncs

/-- A cluster with a configuration that nothing has been written to yet. -/
def configuredCluster : Objects :=
  { newCluster with configMaps := Map.empty.insert (gatewayNs, "envoy-xds-config") Map.empty }

/-- A DestinationRule that says nothing. -/
def emptyRule : DynamicObject where
  name := some "rule"
  ns := some gatewayNs
  data := .obj []

theorem current_after_quiet_undisturbed :
    Current (controllers.exec ⟨configuredCluster, []⟩ (undisturbed emptyRule)).store := by
  have hconfig : (configuredCluster.configMaps.get (gatewayNs, "envoy-xds-config")).isSome = true := by
    decide +kernel
  have hdone : ⟨.destinationRule emptyRule, .done (.ok ())⟩ ∈
      (controllers.exec ⟨configuredCluster, []⟩ (undisturbed emptyRule)).tasks := by
    rw [exec_undisturbed hconfig]
    exact List.mem_cons_self
  exact current_after_quiet (allowed_undisturbed configuredCluster emptyRule) hdone trivial

/-! ## 5. A change that is lost -/

/-- The objects after the write of a route. -/
def written (s : Objects) (w : RouteWrite) : Objects := { s with routes := putRoute s.routes w }

/-- A reconcile for the DestinationRule `dr` has read the routes when the one of `w` is written; the reconcile for that
one goes through; and then the first one writes what it has read. -/
def lateWrite (dr : DynamicObject) (w : RouteWrite) : List (Move Objects Fate Reconcile) :=
  .start (.destinationRule dr) :: List.replicate 2 (.serve 0 .served) ++
    (.edit fun s => written s w) :: .start (.httproute w.route) :: List.replicate 4 (.serve 1 .served) ++
    List.replicate 2 (.serve 0 .served)

/-- The objects when the reconcile for the route is through: a route that does not name the Gateway has nothing
written for it. -/
def synced (s : Objects) (w : RouteWrite) : Objects :=
  if referencesOurGateway w.route then (apply (written s w) (patchConfig (currentFiles (written s w)))).1
  else written s w

section LateWrite

variable {s : Objects} (hconfig : (s.configMaps.get (gatewayNs, "envoy-xds-config")).isSome = true) (w : RouteWrite)
include hconfig

theorem synced_configMap : ((synced s w).configMaps.get (gatewayNs, "envoy-xds-config")).isSome = true := by
  rw [synced]
  split
  · exact (apply_patchConfig hconfig _).2
  · exact hconfig

/-- The reconcile for the route, when nothing comes in between. -/
theorem advance_httproute : Prog.advance apiServer .served 4 (written s w, program (.httproute w.route)) =
    (synced s w, .done (.ok ())) := by
  cases hreferences : referencesOurGateway w.route with
  | true =>
    have hprogram : program (.httproute w.route) = syncGateway := if_pos hreferences
    have hrun : Prog.advance apiServer .served 4 (written s w, syncGateway) =
        ((apply (written s w) (patchConfig (currentFiles (written s w)))).1,
          .done (apply (written s w) (patchConfig (currentFiles (written s w)))).2) := advance_routesRead rfl
    have hok : (apply (written s w) (patchConfig (currentFiles (written s w)))).2 = .ok () :=
      (apply_patchConfig hconfig _).1
    rw [hprogram, hrun, hok, synced, if_pos hreferences]
  | false =>
    have hprogram : program (.httproute w.route) = .done (.ok ()) := if_neg (by rw [hreferences]; exact Bool.false_ne_true)
    rw [hprogram, synced, if_neg (by rw [hreferences]; exact Bool.false_ne_true)]
    rfl

theorem exec_lateWrite (dr : DynamicObject) :
    controllers.exec ⟨s, []⟩ (lateWrite dr w) =
      ⟨(apply (synced s w) (patchConfig (currentFiles s))).1,
        [⟨.destinationRule dr, .done (apply (synced s w) (patchConfig (currentFiles s))).2⟩,
          ⟨.httproute w.route, .done (.ok ())⟩]⟩ := by
  have hfirst : controllers.exec ⟨s, []⟩ (.start (.destinationRule dr) :: List.replicate 2 (.serve 0 .served)) =
      ⟨s, [⟨.destinationRule dr, routesRead s⟩]⟩ := by
    show controllers.exec ⟨s, [⟨.destinationRule dr, syncGateway⟩]⟩ _ = _
    rw [controllers, exec_serve rfl, advance_syncGateway]
    rfl
  have hsecond : controllers.exec ⟨s, [⟨.destinationRule dr, routesRead s⟩]⟩
      ((.edit fun s => written s w) :: .start (.httproute w.route) :: List.replicate 4 (.serve 1 .served)) =
      ⟨synced s w, [⟨.destinationRule dr, routesRead s⟩, ⟨.httproute w.route, .done (.ok ())⟩]⟩ := by
    show controllers.exec ⟨written s w, [⟨.destinationRule dr, routesRead s⟩,
      ⟨.httproute w.route, program (.httproute w.route)⟩]⟩ _ = _
    rw [controllers, exec_serve rfl, advance_httproute hconfig w]
    rfl
  have hrules : (synced s w).destinationRules = s.destinationRules := by
    rw [synced]
    split <;> rfl
  rw [lateWrite, Machine.exec_append, Machine.exec_append, hfirst, hsecond, controllers, exec_serve rfl,
    advance_routesRead hrules]
  rfl

end LateWrite

/-- The ConfigMap holds one content for each file. -/
theorem HoldsFiles.unique {files files' : List (String × String)} {s : Objects} (h : HoldsFiles files s)
    (h' : HoldsFiles files' s) (hnames : files.map Prod.fst = files'.map Prod.fst) : files = files' := by
  obtain ⟨data, hdata, hfiles⟩ := h
  obtain ⟨data', hdata', hfiles'⟩ := h'
  rw [hdata, Option.some.injEq] at hdata'
  subst hdata'
  -- the names determine the contents
  have hcontents : ∀ fs : List (String × String), (∀ file ∈ fs, data.get file.1 = some file.2) →
      (fs.map Prod.fst).map (fun n => (n, data.get n)) = fs.map fun file => (file.1, some file.2) := by
    intro fs hfs
    rw [List.map_map]
    exact List.map_congr_left fun file hfile => Prod.ext rfl (hfs file hfile)
  have hmap : files.map (fun file => (file.1, some file.2)) = files'.map fun file => (file.1, some file.2) := by
    rw [← hcontents files hfiles, ← hcontents files' hfiles', hnames]
  refine List.map_injective_iff.mpr ?_ hmap
  rintro ⟨n, c⟩ ⟨n', c'⟩ heq
  simp only [Prod.mk.injEq, Option.some.injEq] at heq
  exact Prod.ext heq.1 heq.2

/-- **A change can be lost.**  In every cluster with a configuration, for every route that is written while a
DestinationRule is being reconciled, one that names the Gateway or one that no longer does, there is a run in which
both reconciles succeed, every request is served, and the ConfigMap holds the files of before the write at the end.
So the configuration is current only if the route makes no difference to it; and nothing is left to be done. -/
theorem stale_sync_wins (s : Objects) (hconfig : (s.configMaps.get (gatewayNs, "envoy-xds-config")).isSome = true)
    (dr : DynamicObject) (w : RouteWrite) :
    let final := controllers.exec ⟨s, []⟩ (lateWrite dr w)
    final.tasks = [⟨.destinationRule dr, .done (.ok ())⟩, ⟨.httproute w.route, .done (.ok ())⟩] ∧
      final.store.routes = putRoute s.routes w ∧ HoldsFiles (currentFiles s) final.store ∧
      (Current final.store ↔ currentFiles (written s w) = currentFiles s) := by
  have hsynced := synced_configMap hconfig w
  have hholds : HoldsFiles (currentFiles s) (apply (synced s w) (patchConfig (currentFiles s))).1 :=
    holdsFiles_patch hsynced
  have hcurrent : currentFiles (apply (synced s w) (patchConfig (currentFiles s))).1 = currentFiles (written s w) := by
    rw [synced]
    split <;> rfl
  have hroutes : (synced s w).routes = putRoute s.routes w := by
    rw [synced]
    split <;> rfl
  rw [exec_lateWrite hconfig w dr, (apply_patchConfig hsynced _).1]
  refine ⟨rfl, hroutes, hholds, ?_⟩
  rw [Current, hcurrent]
  exact ⟨fun h => h.unique hholds rfl, fun h => h ▸ hholds⟩

/-- A new route for the Gateway. -/
def newRoute : RouteWrite where
  route :=
    { name := some "api"
      ns := some "shop"
      data := .obj [("spec", .obj [("parentRefs", .arr [.obj [("name", .str "data-science-gateway")]]),
        ("rules", .arr [.obj [("backendRefs", .arr [.obj [("name", .str "api"), ("port", .num 8080)]])]])])] }
  position := 0

theorem stale_sync_wins_newRoute :
    ¬ Current (controllers.exec ⟨configuredCluster, []⟩ (lateWrite emptyRule newRoute)).store := by
  -- the two cluster files have one cluster and two
  have hclusters : ∀ rules tlsPorts, AllNamed rules → (readClusters (generateCdsYaml rules tlsPorts)).length =
      (firstSeen [] (rules.flatMap HttpRouteRule.backends)).length + 1 := by
    intro rules tlsPorts hrules
    rw [readClusters_generateCdsYaml hrules, List.length_cons, List.length_map]
  have hdiffer : currentFiles (written configuredCluster newRoute) ≠ currentFiles configuredCluster := by
    intro heq
    simp only [currentFiles, xdsFiles, List.cons.injEq, Prod.mk.injEq] at heq
    have hlength := congrArg List.length (congrArg readClusters heq.2.2.1.2)
    rw [hclusters _ _ (by decide +kernel), hclusters _ _ (by decide +kernel)] at hlength
    exact absurd hlength (by decide +kernel)
  have hlost := stale_sync_wins configuredCluster (by decide +kernel) emptyRule newRoute
  exact fun hcurrent => hdiffer (hlost.2.2.2.mp hcurrent)

end Picoshift.Gateway
