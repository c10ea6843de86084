/-
# The Envoy configuration the gateway writes

`gateway.rs` turns HTTPRoutes into two files that Envoy watches.  `generate_rds_yaml` writes one
route for every rule, to the CLUSTER of the rule's first backend; `generate_cds_yaml` writes one
cluster for every backend of every rule, and skips a backend whose cluster is there already.  The
two functions agree on nothing but how a cluster is called (`clusterName`).

This file translates both, with the functions that read the rules and the TLS ports out of the API
objects.  A file is the text of its lines.
-/
import Mathlib.Data.List.Sort
import Picoshift.Lib.Str
import Picoshift.Proxy.Types

namespace Picoshift.Gateway

open Proxy (DynamicObject)

/-! ## 1. Rules -/

structure HttpRouteBackend where
  serviceName : String
  ns : String
  port : UInt16
  deriving DecidableEq, Repr

structure HttpRouteRule where
  pathPrefix : String
  backends : List HttpRouteBackend
  deriving DecidableEq, Repr

/-- The path of a rule: the value of its first match, `/` where there is none. -/
def rulePath (rule : Json) : String :=
  ((do
    let first ← (← (← rule.get "matches").asArray).head?
    (← (← first.get "path").get "value").asStr) : Option String).getD "/"

/-- One backend of a rule; a backend without a name is dropped. -/
def ruleBackend (routeNs : String) (backend : Json) : Option HttpRouteBackend :=
  let svcName := ((backend.get "name").bind Json.asStr).getD ""
  let ns := ((backend.get "namespace").bind Json.asStr).getD routeNs
  let port := ((backend.get "port").bind Json.asU64).getD 80
  if svcName = "" then none else some ⟨svcName, ns, UInt16.ofNat port⟩

/-- `extract_httproute_rules`. -/
def extractHttprouteRules (route : DynamicObject) : List HttpRouteRule :=
  match ((route.data.get "spec").bind (·.get "rules")).bind Json.asArray with
  | none => []
  | some rules => rules.map fun rule =>
    { pathPrefix := rulePath rule
      backends := (((rule.get "backendRefs").bind Json.asArray).getD []).filterMap
        (ruleBackend (route.ns.getD "")) }

/-- How the cluster of a backend is called. -/
def clusterName (b : HttpRouteBackend) : String :=
  b.serviceName ++ "_" ++ b.ns ++ "_" ++ toString b.port.toNat

theorem toList_clusterName (b : HttpRouteBackend) : (clusterName b).toList =
    b.serviceName.toList ++ '_' :: (b.ns.toList ++ '_' :: Nat.toDigits 10 b.port.toNat) := by
  rw [clusterName, String.toList_append, Str.toList_toString]
  simp

/-- The rule has a backend. -/
def hasBackend (rule : HttpRouteRule) : Bool := !rule.backends.isEmpty

/-! ## 2. Routes -/

/-- A route: the paths that begin with `path` go to the cluster `cluster`. -/
structure RouteEntry where
  path : String
  cluster : String
  deriving DecidableEq, Repr

/-- `sorted_routes`: longer paths first, in the order of the list where they are equally long. -/
def sortedRoutes (routes : List HttpRouteRule) : List HttpRouteRule :=
  routes.insertionSort fun a b => b.pathPrefix.utf8ByteSize ≤ a.pathPrefix.utf8ByteSize

/-- The route of a rule. -/
def ruleRoute (rule : HttpRouteRule) : Option RouteEntry :=
  rule.backends.head?.map fun b => ⟨rule.pathPrefix, clusterName b⟩

/-- The text of a route. -/
def routeYaml (r : RouteEntry) : String :=
  Str.unlines [
    "            - match:",
    "                prefix: \"" ++ r.path ++ "\"",
    "              route:",
    "                cluster: " ++ r.cluster,
    "                upgrade_configs:",
    "                - upgrade_type: websocket"]

/-- The route for a list of rules without a backend. -/
def noBackendsYaml : String :=
  Str.unlines [
    "            - match:",
    "                prefix: \"/\"",
    "              direct_response:",
    "                status: 503",
    "                body:",
    "                  inline_string: \"no backends configured\""]

/-- `route_entries` after the loop. -/
def routeEntries (routes : List HttpRouteRule) : String :=
  (sortedRoutes routes).foldl
    (fun text rule => match ruleRoute rule with
      | some r => text ++ routeYaml r
      | none => text) ""

/-- `generate_rds_yaml`, up to its routes. -/
def rdsHead (hostname : String) : String :=
  Str.unlines [
    "resources:",
    "- \"@type\": type.googleapis.com/envoy.config.route.v3.RouteConfiguration",
    "  name: gateway-routes",
    "  virtual_hosts:",
    "  - name: gateway",
    "    domains:",
    "    - \"" ++ hostname ++ "\"",
    "    - \"*\"",
    "    routes:"]

/-- `generate_rds_yaml`. -/
def generateRdsYaml (hostname : String) (routes : List HttpRouteRule) : String :=
  rdsHead hostname ++
    (if routeEntries routes = "" then noBackendsYaml else routeEntries routes)

/-- The routes `generate_rds_yaml` emits, in the order in which it emits them. -/
def emittedRoutes (routes : List HttpRouteRule) : List RouteEntry :=
  (sortedRoutes routes).filterMap ruleRoute

theorem ruleRoute_isSome (rule : HttpRouteRule) : (ruleRoute rule).isSome = hasBackend rule := by
  obtain ⟨value, backends⟩ := rule
  cases backends <;> rfl

theorem mem_emittedRoutes {routes : List HttpRouteRule} {r : RouteEntry} : r ∈ emittedRoutes routes ↔
    ∃ rule ∈ routes, ∃ b, rule.backends.head? = some b ∧ r = ⟨rule.pathPrefix, clusterName b⟩ := by
  rw [emittedRoutes, List.mem_filterMap]
  simp only [sortedRoutes, List.mem_insertionSort, ruleRoute, Option.map_eq_some_iff]
  simp only [eq_comm]

theorem emittedRoutes_eq_nil_iff (rules : List HttpRouteRule) :
    emittedRoutes rules = [] ↔ ∀ rule ∈ rules, rule.backends = [] := by
  rw [emittedRoutes, List.filterMap_eq_nil_iff]
  simp only [sortedRoutes, List.mem_insertionSort]
  refine forall₂_congr fun rule _ => ?_
  rw [← Option.not_isSome_iff_eq_none, ruleRoute_isSome, hasBackend]
  simp

/-- The text of a list of routes. -/
def routesYaml : List RouteEntry → String
  | [] => ""
  | r :: rs => routeYaml r ++ routesYaml rs

/-- What the loop writes is the text of these routes. -/
theorem routeEntries_eq (routes : List HttpRouteRule) :
    routeEntries routes = routesYaml (emittedRoutes routes) := by
  have hloop : ∀ (rules : List HttpRouteRule) (text : String),
      rules.foldl (fun text rule => match ruleRoute rule with
        | some r => text ++ routeYaml r
        | none => text) text = text ++ routesYaml (rules.filterMap ruleRoute) := by
    intro rules
    induction rules with
    | nil => exact fun text => (String.append_empty).symm
    | cons rule rules ih =>
      intro text
      rw [List.foldl_cons, ih]
      cases hrule : ruleRoute rule with
      | none => rw [List.filterMap_cons_none hrule]
      | some r => rw [List.filterMap_cons_some hrule, routesYaml, String.append_assoc]
  exact (hloop _ _).trans String.empty_append

/-- **What the route file says**: the emitted routes, one after the other, or that there is no
backend. -/
theorem generateRdsYaml_eq (hostname : String) (routes : List HttpRouteRule) :
    generateRdsYaml hostname routes = rdsHead hostname ++
      (if emittedRoutes routes = [] then noBackendsYaml else routesYaml (emittedRoutes routes)) := by
  have hempty : routesYaml (emittedRoutes routes) = "" ↔ emittedRoutes routes = [] := by
    cases emittedRoutes routes with
    | nil => exact iff_of_true rfl rfl
    | cons r rs =>
      refine iff_of_false ?_ (List.cons_ne_nil _ _)
      intro h
      rw [routesYaml, String.append_eq_empty_iff, routeYaml, Str.unlines,
        String.append_eq_empty_iff, String.append_eq_empty_iff] at h
      exact absurd h.1.1.2 (by decide)
  rw [generateRdsYaml, routeEntries_eq]
  simp only [hempty]

/-! ## 3. Clusters -/

/-- The port a DestinationRule sets TLS for in one of its port settings. -/
def tlsPort (setting : Json) : Option UInt16 :=
  if (((setting.get "tls").bind (·.get "mode")).bind Json.asStr).isSome then
    (((setting.get "port").bind (·.get "number")).bind Json.asU64).map UInt16.ofNat
  else none

/-- `extract_tls_ports`, as the list of what is inserted into the set. -/
def extractTlsPorts (dr : DynamicObject) : List UInt16 :=
  match (((dr.data.get "spec").bind (·.get "trafficPolicy")).bind
      (·.get "portLevelSettings")).bind Json.asArray with
  | none => []
  | some settings => settings.filterMap tlsPort

/-- `KUBE_AUTH_PROXY_SVC`. -/
def kubeAuthProxySvc : String := "kube-auth-proxy"

/-- `GATEWAY_NS`. -/
def gatewayNs : String := "openshift-ingress"

/-- `KUBE_AUTH_PROXY_PORT`. -/
def kubeAuthProxyPort : UInt16 := 8443

/-- `tls_block`, when the cluster speaks TLS. -/
def tlsBlock : List String := [
  "  transport_socket:",
  "    name: envoy.transport_sockets.tls",
  "    typed_config:",
  "      \"@type\": type.googleapis.com/envoy.extensions.transport_sockets.tls.v3.UpstreamTlsContext",
  "      common_tls_context:",
  "        validation_context:",
  "          trust_chain_verification: ACCEPT_UNTRUSTED"]

/-- The line that opens a cluster. -/
def clusterHeader : String := "- \"@type\": type.googleapis.com/envoy.config.cluster.v3.Cluster"

/-- What a cluster says in front of the address of its endpoint. -/
def clusterFront (name : String) (tls : Bool) : List String :=
  ["  name: " ++ name,
   "  type: STRICT_DNS",
   "  lb_policy: ROUND_ROBIN"] ++
  (if tls then tlsBlock else []) ++
  ["  load_assignment:",
   "    cluster_name: " ++ name,
   "    endpoints:",
   "    - lb_endpoints:",
   "      - endpoint:",
   "          address:",
   "            socket_address:"]

/-- The lines of a cluster called `name` with one endpoint. -/
def clusterLines (name : String) (tls : Bool) (svc ns : String) (port : UInt16) : List String :=
  clusterHeader :: clusterFront name tls ++
  ["              address: " ++ (svc ++ "." ++ ns ++ ".svc.cluster.local"),
   "              port_value: " ++ toString port.toNat]

/-- The cluster of the authentication proxy, which is always there. -/
def kubeAuthProxyLines : List String :=
  clusterLines kubeAuthProxySvc true kubeAuthProxySvc gatewayNs kubeAuthProxyPort

/-- The cluster of a backend. -/
def backendLines (tlsPorts : List UInt16) (b : HttpRouteBackend) : List String :=
  clusterLines (clusterName b) (tlsPorts.contains b.port) b.serviceName b.ns b.port

/-- One round of the inner loop of `generate_cds_yaml`; `st` is `clusters` and `seen`. -/
def addBackend (tlsPorts : List UInt16) (st : String × List String) (b : HttpRouteBackend) :
    String × List String :=
  if st.2.contains (clusterName b) then st
  else (st.1 ++ Str.unlines (backendLines tlsPorts b), clusterName b :: st.2)

/-- `generate_cds_yaml`. -/
def generateCdsYaml (routes : List HttpRouteRule) (tlsPorts : List UInt16) : String :=
  "resources:\n" ++
    (routes.foldl (fun st rule => rule.backends.foldl (addBackend tlsPorts) st)
      (Str.unlines kubeAuthProxyLines, [])).1

end Picoshift.Gateway
