/-
# The route table

Two tasks fill one map from hosts to backends.  `build_route_table` follows the Routes and
`build_gateway_route_table` follows the HTTPRoutes; both only ever INSERT.  §1 and §2 translate
what one object makes each of them write.

* §3 runs the first task against a cluster in which Routes come, change and go.  `applied_objects`
  lets no deletion through, and an update inserts under the new host without removing the old
  one.  So an entry outlives the Route it came from, and the table is faithful to the cluster
  exactly as long as every Route that gives up an entry hands it to another one
  (`table_faithful_iff`).
* §4 runs both tasks over a fixed cluster.  The last insert wins, so the table is the same for
  every order of the events exactly when no two objects want a host for different backends
  (`table_order_independent_iff`).
-/
import Picoshift.Lib.Machine
import Picoshift.Lib.Writers
import Picoshift.Proxy.Types

namespace Picoshift.Proxy

/-- `RouteTable`. -/
abbrev RouteTable := Map String RouteBackend

/-! ## 1. What a Route writes -/

/-- The host in `status.ingress[0].host`. -/
def statusHost (route : DynamicObject) : Option String := do
  let ingress ← (← route.data.get "status").get "ingress"
  let first ← (← ingress.asArray).head?
  (← first.get "host").asStr

/-- The host in `spec.host`, unless it is empty. -/
def specHost (route : DynamicObject) : Option String := do
  let host ← (← (← route.data.get "spec").get "host").asStr
  if host = "" then none else some host

/-- `extract_host`. -/
def extractHost (route : DynamicObject) : Option String := (statusHost route).or (specHost route)

/-- The target port in `spec.port`, 80 where there is none. -/
def extractPort (spec : Json) : TargetPort :=
  match (spec.get "port").bind (·.get "targetPort") with
  | none => .number 80
  | some target =>
    match target.asU64, target.asStr with
    | some num, _ => .number (asI32 num)
    | none, some name => .name name
    | none, none => .number 80

/-- Whether `spec.tls.termination` keeps TLS up to the backend. -/
def extractTls (spec : Json) : Bool :=
  match ((spec.get "tls").bind (·.get "termination")).bind Json.asStr with
  | some t => t == "reencrypt" || t == "passthrough"
  | none => false

/-- `extract_backend`. -/
def extractBackend (route : DynamicObject) : Option (String × TargetPort × Bool) := do
  let spec ← route.data.get "spec"
  let svcName ← (← (← spec.get "to").get "name").asStr
  some (svcName, extractPort spec, extractTls spec)

/-- The entry a Route stands for: its host and its backend. -/
def routeEntry (route : DynamicObject) : Option (String × RouteBackend) := do
  let host ← extractHost route
  let (svcName, targetPort, tls) ← extractBackend route
  some (host, ⟨svcName, route.ns.getD "", targetPort, tls⟩)

/-- What `build_route_table` writes for one object. -/
def routeWrites (route : DynamicObject) : List (String × RouteBackend) := (routeEntry route).toList

/-! ## 2. What an HTTPRoute writes -/

/-- The API server's answers to the second task, by namespace and Gateway name: the Gateway, and
the Services that carry its `gateway-name` label.  `none` is a failed request. -/
structure Api where
  gateway : String → String → Option DynamicObject
  services : String → String → Option (List Service)

/-- An array below `spec`, empty where it is missing. -/
def specArray (object : DynamicObject) (key : String) : List Json :=
  (((object.data.get "spec").bind (·.get key)).bind Json.asArray).getD []

/-- `hostnames`. -/
def hostnames (route : DynamicObject) : List String :=
  (specArray route "hostnames").filterMap Json.asStr

/-- The hostnames of a Gateway's listeners. -/
def listenerHosts (gw : DynamicObject) : List String :=
  (specArray gw "listeners").filterMap fun listener => (listener.get "hostname").bind Json.asStr

/-- The port of a Gateway's Service, and whether it speaks TLS: the one called `https` or numbered
443, else the one called `http` or numbered 80, else 80. -/
def gatewayPort (svc : Service) : Int × Bool :=
  let ports := (svc.spec.bind ServiceSpec.ports).getD []
  match ports.find? (fun p => p.name == some "https" || p.port == 443),
    ports.find? (fun p => p.name == some "http" || p.port == 80) with
  | some p, _ => (p.port, true)
  | none, some p => (p.port, false)
  | none, none => (80, false)

/-- What one parent of an HTTPRoute makes the task write. -/
def parentWrites (api : Api) (routeNs : String) (hosts : List String) (parent : Json) :
    List (String × RouteBackend) :=
  match (parent.get "name").bind Json.asStr with
  | none => []
  | some gwName =>
  let gwNs := ((parent.get "namespace").bind Json.asStr).getD routeNs
  let allHosts :=
    if hosts = [] then ((api.gateway gwNs gwName).map listenerHosts).getD [] else hosts
  match (api.services gwNs gwName).bind List.head? with
  | none => []
  | some svc =>
    let (port, tls) := gatewayPort svc
    allHosts.map fun host => (host, ⟨svc.name.getD "", svc.ns.getD gwNs, .number port, tls⟩)

/-- What `build_gateway_route_table` writes for one object. -/
def gatewayWrites (api : Api) (route : DynamicObject) : List (String × RouteBackend) :=
  (specArray route "parentRefs").flatMap (parentWrites api (route.ns.getD "") (hostnames route))

/-! ## 3. Routes that come, change and go -/

/-- What identifies an object: its namespace and its name. -/
abbrev Key := String × String

def DynamicObject.key (object : DynamicObject) : Key := (object.ns.getD "", object.name.getD "")

/-- An operation on the Routes. -/
inductive RouteOp where
  | create (route : DynamicObject)
  | update (route : DynamicObject)
  | delete (key : Key)

/-- An event of the watcher. -/
inductive WatchEvent where
  | apply (route : DynamicObject)
  | delete (route : DynamicObject)

/-- What the API server does with an operation, and the event it causes: creating what exists and
changing or deleting what does not is refused. -/
def serveOp (routes : Map Key DynamicObject) :
    RouteOp → Map Key DynamicObject × Option WatchEvent
  | .create route =>
    match routes.get route.key with
    | some _ => (routes, none)
    | none => (routes.insert route.key route, some (.apply route))
  | .update route =>
    match routes.get route.key with
    | some _ => (routes.insert route.key route, some (.apply route))
    | none => (routes, none)
  | .delete key =>
    match routes.get key with
    | some route => (routes.erase key, some (.delete route))
    | none => (routes, none)

/-- `applied_objects()`: deletions are dropped from the stream. -/
def appliedObjects : WatchEvent → Option DynamicObject
  | .apply route => some route
  | .delete _ => none

/-- One round of the loop of `build_route_table`. -/
def buildRouteTable (table : RouteTable) (event : WatchEvent) : RouteTable :=
  match appliedObjects event with
  | some route => table.writeAll (routeWrites route)
  | none => table

/-- The Routes that exist, and the proxy's table. -/
structure World where
  routes : Map Key DynamicObject
  table : RouteTable

def World.init : World := ⟨Map.empty, Map.empty⟩

/-- The cluster and the proxy: every operation is served and its event processed. -/
def world : Machine World RouteOp (Option WatchEvent) where
  step s op :=
    let (routes, event) := serveOp s.routes op
    (⟨routes, (event.map (buildRouteTable s.table)).getD s.table⟩, event)

/-- Every entry of the table is that of a Route that exists. -/
def Faithful (s : World) : Prop :=
  ∀ host backend, s.table.get host = some backend →
    ∃ key route, s.routes.get key = some route ∧ routeEntry route = some (host, backend)

/-- Giving up the Route at `key`, for one with the host `newHost` or for none, leaves no entry
behind: the entry is not in the table, or is overwritten, or is another Route's as well. -/
def HandsOver (s : World) (key : Key) (newHost : Option String) : Prop :=
  ∀ route host backend, s.routes.get key = some route → routeEntry route = some (host, backend) →
    s.table.get host = some backend → newHost = some host ∨
      ∃ key' route', key' ≠ key ∧ s.routes.get key' = some route' ∧
        routeEntry route' = some (host, backend)

/-- The condition on an operation. -/
def StepOk (s : World) : RouteOp → Prop
  | .create _ => True
  | .update route => HandsOver s route.key ((routeEntry route).map Prod.fst)
  | .delete key => HandsOver s key none

/-- The table after a Route was applied. -/
theorem get_writeAll_routeWrites {table : RouteTable} {route : DynamicObject} {host : String}
    {backend : RouteBackend} :
    (table.writeAll (routeWrites route)).get host = some backend ↔
      routeEntry route = some (host, backend) ∨
        ((routeEntry route).map Prod.fst ≠ some host ∧ table.get host = some backend) := by
  rw [routeWrites]
  cases hentry : routeEntry route with
  | none => simp
  | some entry =>
    obtain ⟨host', backend'⟩ := entry
    simp only [Option.toList_some, Map.writeAll_cons, Map.writeAll_nil,
      Map.get_insert_eq_some, Option.map_some, Option.some.injEq, Prod.mk.injEq, ne_eq]
    constructor
    · rintro (⟨rfl, rfl⟩ | ⟨hne, hget⟩)
      · exact Or.inl ⟨rfl, rfl⟩
      · exact Or.inr ⟨fun h => hne h.symm, hget⟩
    · rintro (⟨rfl, rfl⟩ | ⟨hne, hget⟩)
      · exact Or.inl ⟨rfl, rfl⟩
      · exact Or.inr ⟨fun h => hne h.symm, hget⟩

/-- Storing a Route, new or not, keeps the table faithful exactly when the old one hands over. -/
theorem faithful_put_iff {s : World} (hs : Faithful s) (route : DynamicObject) :
    Faithful ⟨s.routes.insert route.key route, s.table.writeAll (routeWrites route)⟩ ↔
      HandsOver s route.key ((routeEntry route).map Prod.fst) := by
  constructor
  · intro hf old host backend hold hentry hget
    by_cases hnew : (routeEntry route).map Prod.fst = some host
    · exact Or.inl hnew
    · -- the entry stays in the table, so some Route of the new cluster has it
      obtain ⟨key', route', hroute', hentry'⟩ :=
        hf host backend (get_writeAll_routeWrites.mpr (Or.inr ⟨hnew, hget⟩))
      rcases Map.get_insert_eq_some.mp hroute' with ⟨-, rfl⟩ | ⟨hne, hroute'⟩
      · rw [hentry'] at hnew
        exact absurd rfl hnew
      · exact Or.inr ⟨key', route', hne, hroute', hentry'⟩
  · intro hover host backend hget
    rcases get_writeAll_routeWrites.mp hget with hentry | ⟨hnew, hget⟩
    · exact ⟨route.key, route, Map.get_insert_self _ _ _, hentry⟩
    · obtain ⟨key, old, hold, hentry⟩ := hs host backend hget
      by_cases hkey : key = route.key
      · subst hkey
        rcases hover old host backend hold hentry hget with h | ⟨key', route', hne, hroute', h⟩
        · exact absurd h hnew
        · exact ⟨key', route', by rw [Map.get_insert_ne _ hne, hroute'], h⟩
      · exact ⟨key, old, by rw [Map.get_insert_ne _ hkey, hold], hentry⟩

/-- Deleting a Route keeps the table faithful exactly when the Route hands over. -/
theorem faithful_erase_iff {s : World} (hs : Faithful s) (key : Key) :
    Faithful ⟨s.routes.erase key, s.table⟩ ↔ HandsOver s key none := by
  constructor
  · intro hf old host backend hold hentry hget
    obtain ⟨key', route', hroute', hentry'⟩ := hf host backend hget
    obtain ⟨hne, hroute'⟩ := Map.get_erase_eq_some.mp hroute'
    exact Or.inr ⟨key', route', hne, hroute', hentry'⟩
  · intro hover host backend hget
    obtain ⟨key', old, hold, hentry⟩ := hs host backend hget
    by_cases hkey : key' = key
    · subst hkey
      rcases hover old host backend hold hentry hget with h | ⟨key'', route', hne, hroute', h⟩
      · cases h
      · exact ⟨key'', route', Map.get_erase_eq_some.mpr ⟨hne, hroute'⟩, h⟩
    · exact ⟨key', old, Map.get_erase_eq_some.mpr ⟨hkey, hold⟩, hentry⟩

theorem handsOver_of_absent {s : World} {key : Key} (h : s.routes.get key = none)
    (newHost : Option String) : HandsOver s key newHost := by
  intro route host backend hroute
  rw [h] at hroute
  cases hroute

/-- What one operation needs to keep the table faithful. -/
theorem faithful_step_iff {s : World} (hs : Faithful s) (op : RouteOp) :
    Faithful (world.step s op).1 ↔ StepOk s op := by
  cases op with
  | create route =>
    simp only [world, serveOp, StepOk, iff_true]
    cases hget : s.routes.get route.key with
    | none => exact (faithful_put_iff hs route).mpr (handsOver_of_absent hget _)
    | some old => exact hs
  | update route =>
    simp only [world, serveOp, StepOk]
    cases hget : s.routes.get route.key with
    | none => exact iff_of_true hs (handsOver_of_absent hget _)
    | some old => exact faithful_put_iff hs route
  | delete key =>
    simp only [world, serveOp, StepOk]
    cases hget : s.routes.get key with
    | none => exact iff_of_true hs (handsOver_of_absent hget _)
    | some old => exact faithful_erase_iff hs key

theorem faithful_init : Faithful World.init := by
  intro host backend h
  cases h

/-- **When the table follows the cluster.**  In a run of operations the table is faithful after
every one of them exactly when every update and every deletion hands its entry over. -/
theorem table_faithful_iff (ops : List RouteOp) :
    (∀ n, Faithful (world.exec World.init (ops.take n))) ↔
      ∀ e ∈ world.trace World.init ops, StepOk e.before e.input := by
  have hstep : ∀ s op, Faithful s → (Faithful (world.step s op).1 ↔ StepOk s op) :=
    fun s op hs => faithful_step_iff hs op
  exact world.forall_take_iff hstep faithful_init ops

/-- A Route for `host` to the Service `svc`. -/
def plainRoute (name host svc : String) : DynamicObject :=
  ⟨some name, some "shop",
    .obj [("spec", .obj [("host", .str host), ("to", .obj [("name", .str svc)])])]⟩

/-- A deleted Route is still routed to. -/
theorem table_keeps_deleted : ¬ Faithful (world.exec World.init
    [.create (plainRoute "web" "shop.apps.test" "web"), .delete ("shop", "web")]) := by
  intro hf
  obtain ⟨key, route, hroute, -⟩ := hf "shop.apps.test" ⟨"web", "shop", .number 80, false⟩ rfl
  have hempty : (world.exec World.init [.create (plainRoute "web" "shop.apps.test" "web"),
      .delete ("shop", "web")]).routes = Map.empty :=
    Map.erase_insert rfl _
  rw [hempty] at hroute
  cases hroute

/-! ## 4. Two tasks, any order -/

/-- The writes the two tasks can make of a fixed cluster: each task is given its objects in some
order, and the scheduler decides whose insert comes next. -/
def Delivery (api : Api) (routes httpRoutes : List DynamicObject)
    (ws : List (String × RouteBackend)) : Prop :=
  ∃ rs hs : List DynamicObject, rs.Perm routes ∧ hs.Perm httpRoutes ∧
    Writers.Interleave (rs.flatMap routeWrites) (hs.flatMap (gatewayWrites api)) ws

/-- An object with these writes wants `host` for `backend`.  An HTTPRoute with several parents can
write a host more than once, and its last write counts. -/
def Wants (writes : List (String × RouteBackend)) (host : String) (backend : RouteBackend) :
    Prop :=
  (Map.ofPairs writes).get host = some backend

/-- What the objects of a cluster write, one list for each. -/
def clusterWrites (api : Api) (routes httpRoutes : List DynamicObject) :
    List (List (String × RouteBackend)) :=
  routes.map routeWrites ++ httpRoutes.map (gatewayWrites api)

/-- An order of the objects is an order of what they write. -/
theorem delivery_iff_schedule {api : Api} {routes httpRoutes : List DynamicObject}
    {ws : List (String × RouteBackend)} :
    Delivery api routes httpRoutes ws ↔
      Writers.Schedule (routes.map routeWrites) (httpRoutes.map (gatewayWrites api)) ws := by
  constructor
  · rintro ⟨rs, hs, hrs, hhs, hinter⟩
    exact ⟨rs.map routeWrites, hs.map (gatewayWrites api), hrs.map _, hhs.map _, hinter⟩
  · rintro ⟨ls, gs, hls, hgs, hinter⟩
    -- a permutation of the lists written is one of the objects
    rw [← congrFun₂ (List.eq_map_comp_perm _) ls routes] at hls
    rw [← congrFun₂ (List.eq_map_comp_perm _) gs httpRoutes] at hgs
    obtain ⟨rs, rfl, hrs⟩ := hls
    obtain ⟨hs, rfl, hhs⟩ := hgs
    exact ⟨rs, hs, hrs, hhs, hinter⟩

/-- **When the order of events does not matter.**  The tables of any two orders are equal exactly
when no two objects of the cluster want a host for different backends. -/
theorem table_order_independent_iff (api : Api) (routes httpRoutes : List DynamicObject) :
    (∀ ws ws', Delivery api routes httpRoutes ws → Delivery api routes httpRoutes ws' →
      (Map.ofPairs ws : RouteTable) = Map.ofPairs ws') ↔
    ∀ w ∈ clusterWrites api routes httpRoutes, ∀ w' ∈ clusterWrites api routes httpRoutes,
      ∀ host backend backend', Wants w host backend → Wants w' host backend' →
        backend = backend' := by
  simp only [delivery_iff_schedule]
  exact Writers.schedules_agree_iff

/-- A cluster without Gateways. -/
def emptyApi : Api := ⟨fun _ _ => none, fun _ _ => none⟩

/-- Two Routes for one host: whichever is delivered last has it. -/
theorem table_depends_on_order : ∃ ws ws',
    Delivery emptyApi [plainRoute "a" "shop.apps.test" "blue",
      plainRoute "b" "shop.apps.test" "green"] [] ws ∧
    Delivery emptyApi [plainRoute "a" "shop.apps.test" "blue",
      plainRoute "b" "shop.apps.test" "green"] [] ws' ∧
    (Map.ofPairs ws : RouteTable) ≠ Map.ofPairs ws' := by
  refine ⟨_, _, ⟨_, [], List.Perm.refl _, List.Perm.nil, Writers.interleave_left _⟩,
    ⟨_, [], List.Perm.swap _ _ _, List.Perm.nil, Writers.interleave_left _⟩, fun h => ?_⟩
  have hhost := congrArg (fun t : RouteTable => t.get "shop.apps.test") h
  have hgreen : (some ⟨"green", "shop", .number 80, false⟩ : Option RouteBackend) =
      some ⟨"blue", "shop", .number 80, false⟩ := hhost
  revert hgreen
  decide

end Picoshift.Proxy
