/-
# Keeping Envoy's configuration in step with the HTTPRoutes

`reconcile_httproute` runs when an HTTPRoute has been created or changed.  It writes the configuration
anew from ALL routes that reference the gateway, but first it looks whether the route it was called for
does, in its NEW version.  So a route that comes or changes is taken up, and one that stops referencing
the gateway is not taken out: its rules stay in the files until some other route is touched.

The configuration is right after every reconcile of a run exactly when no step takes away a route with a
backend that way (`config_synced_iff`).  For one direction, rules without a backend leave no trace in
either file; for the other, every rule with a backend makes the route file longer.
-/
import Picoshift.Gateway.Xds
import Picoshift.Lib.Machine
import Picoshift.Lib.StableSort

namespace Picoshift.Gateway

open Proxy (DynamicObject)

/-! ## 1. The controller -/

/-- `GATEWAY_NAME`. -/
def gatewayName : String := "data-science-gateway"

/-- `references_our_gateway`. -/
def referencesOurGateway (route : DynamicObject) : Bool :=
  ((((route.data.get "spec").bind (·.get "parentRefs")).bind Json.asArray).map fun refs =>
    refs.any fun pr => (pr.get "name").bind Json.asStr == some gatewayName).getD false

def extractListenerHostname (gw : DynamicObject) : Option String := do
  let first ← (← (← (← gw.data.get "spec").get "listeners").asArray).head?
  (← first.get "hostname").asStr

/-- The other objects a reconcile reads: the Gateway and the DestinationRules of its namespace. -/
structure Surroundings where
  gateway : Option DynamicObject
  destinationRules : List DynamicObject

def Surroundings.hostname (around : Surroundings) : String :=
  (around.gateway.bind extractListenerHostname).getD ""

def Surroundings.tlsPorts (around : Surroundings) : List UInt16 :=
  around.destinationRules.flatMap extractTlsPorts

/-- The two files of `envoy-xds-config` that are made from routes. -/
structure XdsConfig where
  rds : String
  cds : String
  deriving DecidableEq, Repr

/-- `all_rules`: the rules of the routes that reference the gateway. -/
def attachedRules (routes : List DynamicObject) : List HttpRouteRule :=
  (routes.filter referencesOurGateway).flatMap extractHttprouteRules

/-- `sync_httproute_config`. -/
def syncHttprouteConfig (around : Surroundings) (routes : List DynamicObject) : XdsConfig where
  rds := generateRdsYaml around.hostname (attachedRules routes)
  cds := generateCdsYaml (attachedRules routes) around.tlsPorts

/-- The HTTPRoutes, in the order in which the API server lists them, and the configuration. -/
structure GatewayState where
  routes : List DynamicObject
  config : XdsConfig

/-- `reconcile_httproute`. -/
def reconcileHttproute (around : Surroundings) (s : GatewayState) (route : DynamicObject) :
    GatewayState :=
  if referencesOurGateway route then { s with config := syncHttprouteConfig around s.routes } else s

/-! ## 2. Runs -/

/-- What tells two objects apart. -/
def objectKey (o : DynamicObject) : Option String × Option String := (o.ns, o.name)

/-- An HTTPRoute is created or updated; `position` is where the API server lists a new one. -/
structure RouteWrite where
  route : DynamicObject
  position : Nat

def putRoute (routes : List DynamicObject) (w : RouteWrite) : List DynamicObject :=
  if routes.any fun r => objectKey r = objectKey w.route then
    routes.map fun r => if objectKey r = objectKey w.route then w.route else r
  else routes.take w.position ++ w.route :: routes.drop w.position

/-- A write, and the reconcile it triggers. -/
def gatewayController (around : Surroundings) : Machine GatewayState RouteWrite Unit where
  step s w := (reconcileHttproute around { s with routes := putRoute s.routes w } w.route, ())

/-- A cluster with some routes and their configuration. -/
def GatewayState.start (around : Surroundings) (routes : List DynamicObject) : GatewayState :=
  ⟨routes, syncHttprouteConfig around routes⟩

/-- The configuration is the one for the current routes. -/
def Synced (around : Surroundings) (s : GatewayState) : Prop :=
  s.config = syncHttprouteConfig around s.routes

/-- The write takes no route with a backend away from the gateway. -/
def KeepsBackends (s : GatewayState) (w : RouteWrite) : Prop :=
  referencesOurGateway w.route = true ∨
    ∀ old ∈ s.routes, objectKey old = objectKey w.route → referencesOurGateway old = true →
      ∀ rule ∈ extractHttprouteRules old, rule.backends = []

/-! ## 3. Rules without a backend leave no trace -/

theorem emittedRoutes_filter (rules : List HttpRouteRule) :
    emittedRoutes (rules.filter hasBackend) = emittedRoutes rules := by
  have hsort : sortedRoutes (rules.filter hasBackend) = (sortedRoutes rules).filter hasBackend :=
    (StableSort.filter_insertionSort (fun rule : HttpRouteRule => rule.pathPrefix.utf8ByteSize)
      hasBackend rules).symm
  rw [emittedRoutes, hsort, List.filterMap_filter, emittedRoutes]
  refine List.filterMap_congr fun rule _ => ?_
  cases hbackend : hasBackend rule with
  | true => rfl
  | false =>
    rw [← ruleRoute_isSome, Option.isSome_eq_false_iff, Option.isNone_iff_eq_none] at hbackend
    rw [hbackend]
    rfl

theorem generateRdsYaml_filter (hostname : String) (rules : List HttpRouteRule) :
    generateRdsYaml hostname (rules.filter hasBackend) = generateRdsYaml hostname rules := by
  rw [generateRdsYaml_eq, generateRdsYaml_eq, emittedRoutes_filter]

theorem generateCdsYaml_filter (tlsPorts : List UInt16) (rules : List HttpRouteRule) :
    generateCdsYaml (rules.filter hasBackend) tlsPorts = generateCdsYaml rules tlsPorts := by
  have hloop : ∀ (rules : List HttpRouteRule) (st : String × List String),
      (rules.filter hasBackend).foldl (fun st rule => rule.backends.foldl (addBackend tlsPorts) st) st =
        rules.foldl (fun st rule => rule.backends.foldl (addBackend tlsPorts) st) st := by
    intro rules
    induction rules with
    | nil => exact fun st => rfl
    | cons rule rules ih =>
      intro st
      obtain ⟨value, backends⟩ := rule
      cases backends with
      | nil => exact ih st
      | cons b bs => exact ih _
  rw [generateCdsYaml, hloop, generateCdsYaml]

/-- The configuration depends on the rules with a backend only. -/
theorem syncHttprouteConfig_congr (around : Surroundings) {routes routes' : List DynamicObject}
    (h : (attachedRules routes).filter hasBackend = (attachedRules routes').filter hasBackend) :
    syncHttprouteConfig around routes = syncHttprouteConfig around routes' := by
  rw [syncHttprouteConfig, syncHttprouteConfig, ← generateRdsYaml_filter, ← generateCdsYaml_filter, h,
    generateRdsYaml_filter, generateCdsYaml_filter]

/-! ## 4. Rules with a backend make the file longer -/

theorem routesYaml_append (es es' : List RouteEntry) :
    routesYaml (es ++ es') = routesYaml es ++ routesYaml es' := by
  induction es with
  | nil => exact String.empty_append.symm
  | cons r rs ih => rw [List.cons_append, routesYaml, routesYaml, ih, String.append_assoc]

/-- The length of the text does not depend on the order of the routes. -/
theorem length_routesYaml_perm {es es' : List RouteEntry} (h : es.Perm es') :
    (routesYaml es).length = (routesYaml es').length := by
  induction h with
  | nil => rfl
  | cons r _ ih => rw [routesYaml, routesYaml, String.length_append, String.length_append, ih]
  | swap r r' rs =>
    simp only [routesYaml, String.length_append]
    omega
  | trans _ _ ih₁ ih₂ => exact ih₁.trans ih₂

/-- How much text the rules make in the route file. -/
def textSize (rules : List HttpRouteRule) : Nat := (routesYaml (rules.filterMap ruleRoute)).length

theorem textSize_perm {rules rules' : List HttpRouteRule} (h : rules.Perm rules') :
    textSize rules = textSize rules' :=
  length_routesYaml_perm (h.filterMap ruleRoute)

theorem textSize_append (rules rules' : List HttpRouteRule) :
    textSize (rules ++ rules') = textSize rules + textSize rules' := by
  rw [textSize, List.filterMap_append, routesYaml_append, String.length_append]
  rfl

theorem length_emittedRoutes (rules : List HttpRouteRule) :
    (routesYaml (emittedRoutes rules)).length = textSize rules :=
  textSize_perm (List.perm_insertionSort _ rules)

/-- A route ends in its upgrade line. -/
theorem routeYaml_ends (r : RouteEntry) : ∃ text, routeYaml r = text ++ "t\n" :=
  ⟨Str.unlines [
    "            - match:",
    "                prefix: \"" ++ r.path ++ "\"",
    "              route:",
    "                cluster: " ++ r.cluster,
    "                upgrade_configs:"] ++ "                - upgrade_type: websocke", by
    simp only [routeYaml, Str.unlines, String.append_assoc]
    rfl⟩

theorem routeYaml_length_pos (r : RouteEntry) : 0 < (routeYaml r).length := by
  obtain ⟨text, htext⟩ := routeYaml_ends r
  rw [htext, String.length_append]
  exact Nat.lt_add_left _ (by decide)

theorem routesYaml_ends {entries : List RouteEntry} (h : entries ≠ []) :
    ∃ text, routesYaml entries = text ++ "t\n" := by
  induction entries with
  | nil => exact absurd rfl h
  | cons r rs ih =>
    cases rs with
    | nil =>
      obtain ⟨text, htext⟩ := routeYaml_ends r
      exact ⟨text, by rw [routesYaml, routesYaml, String.append_empty, htext]⟩
    | cons r' rs =>
      obtain ⟨text, htext⟩ := ih (List.cons_ne_nil _ _)
      exact ⟨routeYaml r ++ text, by rw [routesYaml, htext, String.append_assoc]⟩

theorem noBackendsYaml_ends : ∃ text, noBackendsYaml = text ++ "\"\n" :=
  ⟨Str.unlines [
    "            - match:",
    "                prefix: \"/\"",
    "              direct_response:",
    "                status: 503",
    "                body:"] ++ "                  inline_string: \"no backends configured", by
    simp only [noBackendsYaml, Str.unlines, String.append_assoc]
    rfl⟩

/-- What stands in the file when there is no route is not the text of a route. -/
theorem noBackendsYaml_ne {entries : List RouteEntry} (h : entries ≠ []) :
    noBackendsYaml ≠ routesYaml entries := by
  intro heq
  obtain ⟨text, htext⟩ := routesYaml_ends h
  obtain ⟨text', htext'⟩ := noBackendsYaml_ends
  rw [htext', htext] at heq
  have hends : "\"\n".toList = ['"', '\n'] ∧ "t\n".toList = ['t', '\n'] :=
    ⟨String.toList_ofList, String.toList_ofList⟩
  have hlists := congrArg String.toList heq
  rw [String.toList_append, String.toList_append, hends.1, hends.2] at hlists
  exact absurd (List.append_inj_right' hlists rfl) (by decide)

/-- The route file tells how much text its rules make. -/
theorem textSize_eq_of_generateRdsYaml_eq {hostname : String} {rules rules' : List HttpRouteRule}
    (h : generateRdsYaml hostname rules = generateRdsYaml hostname rules') :
    textSize rules = textSize rules' := by
  rw [generateRdsYaml_eq, generateRdsYaml_eq, String.append_right_inj] at h
  rw [← length_emittedRoutes, ← length_emittedRoutes]
  split at h <;> split at h <;> rename_i h₁ h₂
  · rw [h₁, h₂]
  · exact absurd h (noBackendsYaml_ne h₂)
  · exact absurd h.symm (noBackendsYaml_ne h₁)
  · rw [h]

theorem textSize_eq_zero_iff (rules : List HttpRouteRule) :
    textSize rules = 0 ↔ ∀ rule ∈ rules, rule.backends = [] := by
  induction rules with
  | nil => exact iff_of_true rfl fun _ h => absurd h List.not_mem_nil
  | cons rule rules ih =>
    rw [List.forall_mem_cons, ← ih]
    obtain ⟨value, backends⟩ := rule
    cases backends with
    | nil => exact (and_iff_right rfl).symm
    | cons b bs =>
      have hroute : ruleRoute ⟨value, b :: bs⟩ = some ⟨value, clusterName b⟩ := rfl
      refine iff_of_false ?_ fun h => List.cons_ne_nil _ _ h.1
      rw [textSize, List.filterMap_cons_some hroute, routesYaml, String.length_append]
      have := routeYaml_length_pos ⟨value, clusterName b⟩
      omega

/-! ## 5. Taking a route away -/

/-- The routes that reference the gateway, without those of `key`. -/
def attachedBut (key : Option String × Option String) (routes : List DynamicObject) :
    List DynamicObject :=
  (routes.filter referencesOurGateway).filter fun r => objectKey r ≠ key

theorem filter_map_replace (routes : List DynamicObject) {new : DynamicObject}
    (hnew : referencesOurGateway new = false) :
    (routes.map fun r => if objectKey r = objectKey new then new else r).filter referencesOurGateway =
      attachedBut (objectKey new) routes := by
  rw [attachedBut]
  induction routes with
  | nil => rfl
  | cons r rs ih =>
    rw [List.map_cons]
    by_cases hkey : objectKey r = objectKey new
    · rw [if_pos hkey, List.filter_cons_of_neg (by rw [hnew]; decide), ih]
      cases href : referencesOurGateway r with
      | true => rw [List.filter_cons_of_pos href, List.filter_cons_of_neg (by simp [hkey])]
      | false => rw [List.filter_cons_of_neg (by rw [href]; decide)]
    · rw [if_neg hkey]
      cases href : referencesOurGateway r with
      | true =>
        rw [List.filter_cons_of_pos href, List.filter_cons_of_pos href,
          List.filter_cons_of_pos (by simp [hkey]), ih]
      | false =>
        rw [List.filter_cons_of_neg (by rw [href]; decide),
          List.filter_cons_of_neg (by rw [href]; decide), ih]

/-- A version that does not reference the gateway takes the older ones away, and nothing else. -/
theorem filter_putRoute (routes : List DynamicObject) {w : RouteWrite}
    (hnew : referencesOurGateway w.route = false) :
    (putRoute routes w).filter referencesOurGateway = attachedBut (objectKey w.route) routes := by
  unfold putRoute
  split
  case isTrue _ => exact filter_map_replace routes hnew
  case isFalse hnone =>
    have hkeys : ∀ r ∈ routes.filter referencesOurGateway, objectKey r ≠ objectKey w.route := by
      intro r hr hkey
      exact hnone (List.any_eq_true.mpr ⟨r, (List.mem_filter.mp hr).1, decide_eq_true hkey⟩)
    rw [attachedBut, List.filter_eq_self.mpr fun r hr => decide_eq_true (hkeys r hr),
      List.filter_append, List.filter_cons_of_neg (by rw [hnew]; decide), ← List.filter_append,
      List.take_append_drop]

/-- The attached routes that a write of `key` takes away have no backend when the rest makes as much
text as all of them. -/
theorem backends_eq_nil_of_attachedBut {key : Option String × Option String}
    {routes : List DynamicObject}
    (h : textSize (attachedRules routes) =
      textSize ((attachedBut key routes).flatMap extractHttprouteRules)) :
    ∀ old ∈ routes, objectKey old = key → referencesOurGateway old = true →
      ∀ rule ∈ extractHttprouteRules old, rule.backends = [] := by
  intro old hold hkey href rule hrule
  have hparts := textSize_perm ((List.filter_append_perm (fun r => decide (objectKey r ≠ key))
    (routes.filter referencesOurGateway)).flatMap_right extractHttprouteRules)
  rw [List.flatMap_append, textSize_append] at hparts
  rw [attachedRules, ← hparts, attachedBut, Nat.add_eq_left, textSize_eq_zero_iff] at h
  refine h rule (List.mem_flatMap.mpr ⟨old, ?_, hrule⟩)
  exact List.mem_filter.mpr ⟨List.mem_filter.mpr ⟨hold, href⟩, by simp [hkey]⟩

theorem flatMap_filter_of_nil {α β : Type} {p : α → Bool} {f : α → List β} {l : List α}
    (h : ∀ a ∈ l, p a = false → f a = []) : (l.filter p).flatMap f = l.flatMap f := by
  induction l with
  | nil => rfl
  | cons a l ih =>
    have htail := ih fun b hb => h b (List.mem_cons_of_mem _ hb)
    cases hp : p a with
    | true => rw [List.filter_cons_of_pos hp, List.flatMap_cons, List.flatMap_cons, htail]
    | false =>
      rw [List.filter_cons_of_neg (by rw [hp]; decide), htail, List.flatMap_cons,
        h a List.mem_cons_self hp, List.nil_append]

/-- Without routes that have no backend, the rules with a backend are the same. -/
theorem filter_hasBackend_attachedBut {key : Option String × Option String}
    {routes : List DynamicObject}
    (h : ∀ old ∈ routes, objectKey old = key → referencesOurGateway old = true →
      ∀ rule ∈ extractHttprouteRules old, rule.backends = []) :
    ((attachedBut key routes).flatMap extractHttprouteRules).filter hasBackend =
      (attachedRules routes).filter hasBackend := by
  rw [attachedRules, List.filter_flatMap, List.filter_flatMap, attachedBut]
  refine flatMap_filter_of_nil fun old hold hkey => List.filter_eq_nil_iff.mpr ?_
  intro rule hrule
  obtain ⟨hmem, href⟩ := List.mem_filter.mp hold
  rw [hasBackend, h old hmem (of_not_not (of_decide_eq_false hkey)) href rule hrule]
  decide

/-! ## 6. Runs -/

/-- One step: the configuration stays right exactly when no backend is taken away. -/
theorem synced_step_iff (around : Surroundings) (s : GatewayState) (w : RouteWrite)
    (hs : Synced around s) :
    Synced around ((gatewayController around).step s w).1 ↔ KeepsBackends s w := by
  have hstep : ((gatewayController around).step s w).1 =
      reconcileHttproute around { s with routes := putRoute s.routes w } w.route := rfl
  rw [hstep, reconcileHttproute]
  cases hnew : referencesOurGateway w.route with
  | true =>
    rw [if_pos rfl]
    exact iff_of_true rfl (Or.inl hnew)
  | false =>
    rw [if_neg Bool.false_ne_true]
    -- the files are the old ones: they are right for the new routes iff these make the same files
    have hrules : attachedRules (putRoute s.routes w) =
        (attachedBut (objectKey w.route) s.routes).flatMap extractHttprouteRules := by
      rw [attachedRules, filter_putRoute s.routes hnew]
    constructor
    · intro hsynced
      have hsame : syncHttprouteConfig around s.routes =
          syncHttprouteConfig around (putRoute s.routes w) := hs.symm.trans hsynced
      have hsize := textSize_eq_of_generateRdsYaml_eq (congrArg XdsConfig.rds hsame)
      rw [hrules] at hsize
      exact Or.inr (backends_eq_nil_of_attachedBut hsize)
    · rintro (h | h)
      · rw [hnew] at h
        exact absurd h Bool.false_ne_true
      · refine hs.trans (syncHttprouteConfig_congr around ?_)
        rw [hrules, filter_hasBackend_attachedBut h]

/-- **The configuration after every reconcile** is the one for the routes that reference the gateway,
exactly when no write of the run takes a route with a backend away from it. -/
theorem config_synced_iff (around : Surroundings) (routes : List DynamicObject)
    (run : List RouteWrite) :
    (∀ n, Synced around ((gatewayController around).exec (.start around routes) (run.take n))) ↔
      ∀ e ∈ (gatewayController around).trace (.start around routes) run,
        KeepsBackends e.before e.input := by
  have hstart : Synced around (.start around routes) := rfl
  exact (gatewayController around).forall_take_iff (synced_step_iff around) hstart run

/-- A Gateway with a hostname and no DestinationRules. -/
def sampleSurroundings : Surroundings where
  gateway := some ⟨some "data-science-gateway", some "openshift-ingress", .obj [("spec", .obj [
    ("listeners", .arr [.obj [("hostname", .str "ai.apps.ocp-sim.test")]])])]⟩
  destinationRules := []

/-- The rules of a dashboard's route. -/
def dashboardRules : Json :=
  .arr [.obj [("backendRefs", .arr [.obj [("name", .str "dashboard"), ("port", .num 8080)]])]]

/-- A dashboard's route, attached to the gateway and then detached from it. -/
def detachRun : List RouteWrite := [
  ⟨⟨some "dashboard", some "apps", .obj [("spec", .obj [
    ("parentRefs", .arr [.obj [("name", .str "data-science-gateway")]]),
    ("rules", dashboardRules)])]⟩, 0⟩,
  ⟨⟨some "dashboard", some "apps", .obj [("spec", .obj [("rules", dashboardRules)])]⟩, 0⟩]

/-- The second write leaves the files of the first, with a route to the dashboard, though no route
references the gateway any more. -/
theorem config_synced_not_detached :
    ¬ ∀ n, Synced sampleSurroundings ((gatewayController sampleSurroundings).exec
      (.start sampleSurroundings []) (detachRun.take n)) := by
  intro h
  have hlast := congrArg XdsConfig.rds (h 2)
  exact absurd hlast (by decide +kernel)

end Picoshift.Gateway
