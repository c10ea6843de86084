/-
# The host a Route is admitted under

`reconcile_route` gives a Route its status: it computes the host, from `spec.host` or from the name where that is
empty, and writes it down together with the condition `Admitted`.  It does so ONCE.  A Route that has the condition is
left alone, whatever has become of its spec; the schema of the API says that the host of a Route may not be changed
once it is created, and nothing enforces it.  The proxy prefers the host in the status.

So the host of a Route is the one it was admitted under, from the first reconcile on and through all edits
(`host_stays_as_admitted`).
-/
import Picoshift.Lib.Machine
import Picoshift.Lib.MergePatch
import Picoshift.Proxy.RouteTable

namespace Picoshift.Route

open Proxy (DynamicObject statusHost specHost extractHost)

/-! ## 1. The controller -/

/-- `DOMAIN`. -/
def domain : String := "apps.ocp-sim.test"

/-- The entry of `status.ingress` has the condition `Admitted`. -/
def ingressAdmitted (ingress : Json) : Bool :=
  (((ingress.get "conditions").bind Json.asArray).map fun conds => conds.any fun c =>
    (c.get "type").bind Json.asStr == some "Admitted" && (c.get "status").bind Json.asStr == some "True").getD false

/-- `is_admitted`. -/
def isAdmitted (route : DynamicObject) : Bool :=
  ((((route.data.get "status").bind (·.get "ingress")).bind Json.asArray).map fun arr =>
    arr.any ingressAdmitted).getD false

/-- `compute_host`. -/
def computeHost (route : DynamicObject) : String :=
  let generated := route.name.getD "" ++ "-" ++ route.ns.getD "" ++ "." ++ domain
  match ((route.data.get "spec").bind (·.get "host")).bind Json.asStr with
  | some host => if host ≠ "" then host else generated
  | none => generated

/-- The one entry of `status.ingress` that `reconcile_route` writes. -/
def ingressEntry (host now : String) : Json :=
  .obj [("host", .str host), ("routerName", .str "default"),
    ("routerCanonicalHostname", .str ("router-default." ++ domain)),
    ("conditions", .arr [.obj [("type", .str "Admitted"), ("status", .str "True"),
      ("lastTransitionTime", .str now)]])]

/-- `status_patch`. -/
def statusPatch (host now : String) : Json :=
  .obj [("status", .obj [("ingress", .arr [ingressEntry host now])])]

/-- `reconcile_route`: the Route afterwards, and whether the call succeeds. -/
def reconcileRoute (patchOk : Bool) (now : String) (route : DynamicObject) : DynamicObject × Bool :=
  let host := computeHost route
  if isAdmitted route then (route, true)
  else if patchOk = false then (route, false)
  else ({ route with data := route.data.merge (statusPatch host now) }, true)

/-- A change of `spec.host` to a host or to none, and the time of the reconcile that follows. -/
structure Edit where
  host : Option String
  now : String

/-- The Route with its new spec. -/
def Edit.apply (e : Edit) (route : DynamicObject) : DynamicObject :=
  let value := match e.host with
    | some host => .str host
    | none => .null
  { route with data := route.data.merge (.obj [("spec", .obj [("host", value)])]) }

/-- Every edit is followed by a reconcile that succeeds. -/
def routeController : Machine DynamicObject Edit Unit where
  step route e := ((reconcileRoute true e.now (e.apply route)).1, ())

/-! ## 2. What an edit and a reconcile do -/

/-- An edit leaves the status alone. -/
theorem get_status_apply (e : Edit) (route : DynamicObject) :
    (e.apply route).data.get "status" = route.data.get "status" :=
  Json.get_merge_of_not_mem (by simp) _

theorem isAdmitted_apply (e : Edit) (route : DynamicObject) : isAdmitted (e.apply route) = isAdmitted route := by
  rw [isAdmitted, get_status_apply, isAdmitted]

theorem statusHost_apply (e : Edit) (route : DynamicObject) : statusHost (e.apply route) = statusHost route := by
  rw [statusHost, get_status_apply, statusHost]

/-- The new status holds one entry. -/
theorem ingress_patched (data : Json) (host now : String) :
    ((data.merge (statusPatch host now)).get "status").bind (·.get "ingress") =
      some (.arr [ingressEntry host now]) := by
  rw [statusPatch, Json.get_merge_singleton Json.noConfusion, Option.bind_some,
    Json.get_merge_singleton Json.noConfusion, Json.merge_arr]

theorem isAdmitted_patched {route route' : DynamicObject} {host now : String}
    (h : route'.data = route.data.merge (statusPatch host now)) : isAdmitted route' = true := by
  rw [isAdmitted, h, ingress_patched]
  rfl

theorem statusHost_patched {route route' : DynamicObject} {host now : String}
    (h : route'.data = route.data.merge (statusPatch host now)) : statusHost route' = some host := by
  have hstatus : statusHost route' = ((route'.data.get "status").bind (·.get "ingress")).bind fun ingress =>
      ingress.asArray.bind fun arr => arr.head?.bind fun first => (first.get "host").bind Json.asStr := by
    unfold statusHost
    cases route'.data.get "status" <;> rfl
  rw [hstatus, h, ingress_patched]
  rfl

/-- An admitted Route is left alone. -/
theorem reconcileRoute_of_admitted {route : DynamicObject} (h : isAdmitted route = true) (now : String) :
    (reconcileRoute true now route).1 = route := by
  rw [reconcileRoute, if_pos h]

/-- Any other is admitted under the host that is computed. -/
theorem reconcileRoute_admits {route : DynamicObject} (h : isAdmitted route = false) (now : String) :
    isAdmitted (reconcileRoute true now route).1 = true ∧
      statusHost (reconcileRoute true now route).1 = some (computeHost route) := by
  rw [reconcileRoute, if_neg (by rw [h]; exact Bool.false_ne_true)]
  exact ⟨isAdmitted_patched rfl, statusHost_patched rfl⟩

/-! ## 3. Runs -/

/-- Once admitted, a Route keeps its host through every run. -/
theorem statusHost_exec_of_admitted {route : DynamicObject} (h : isAdmitted route = true) (edits : List Edit) :
    statusHost (routeController.exec route edits) = statusHost route := by
  induction edits generalizing route with
  | nil => rfl
  | cons e edits ih =>
    have hedit : isAdmitted (e.apply route) = true := (isAdmitted_apply e route).trans h
    have hstep : (routeController.step route e).1 = e.apply route := reconcileRoute_of_admitted hedit e.now
    rw [Machine.exec, hstep, ih hedit, statusHost_apply]

/-- The proxy prefers the host in the status. -/
theorem extractHost_of_statusHost {route : DynamicObject} {host : String} (h : statusHost route = some host) :
    extractHost route = some host := by
  rw [extractHost, h]
  rfl

/-- **A Route keeps the host it was admitted under.**  After any edits, with a reconcile after each, a Route that was
not admitted before has the host that was computed after the first edit, in its status and for the proxy; this is the
host of its current spec exactly as long as that computes to the same.  One that was admitted before keeps the host it
had. -/
theorem host_stays_as_admitted (route : DynamicObject) (first : Edit) (edits : List Edit) :
    (isAdmitted route = false →
      statusHost (routeController.exec route (first :: edits)) = some (computeHost (first.apply route)) ∧
      extractHost (routeController.exec route (first :: edits)) = some (computeHost (first.apply route))) ∧
    (isAdmitted route = true →
      statusHost (routeController.exec route (first :: edits)) = statusHost route ∧
      ∀ host, statusHost route = some host →
        extractHost (routeController.exec route (first :: edits)) = some host) := by
  constructor
  · intro hnew
    obtain ⟨hadmitted, hhost⟩ := reconcileRoute_admits ((isAdmitted_apply first route).trans hnew) first.now
    have hstatus : statusHost (routeController.exec route (first :: edits)) =
        some (computeHost (first.apply route)) :=
      (statusHost_exec_of_admitted hadmitted edits).trans hhost
    exact ⟨hstatus, extractHost_of_statusHost hstatus⟩
  · intro hadmitted
    have hstatus := statusHost_exec_of_admitted hadmitted (first :: edits)
    exact ⟨hstatus, fun host hhost => extractHost_of_statusHost (hstatus.trans hhost)⟩

/-- A Route without a host. -/
def shopRoute : DynamicObject := ⟨some "shop", some "team-a", .obj [("spec", .obj [])]⟩

/-- Its host is set and then changed. -/
def shopEdits : List Edit := [⟨some "old.example", "t1"⟩, ⟨some "new.example", "t2"⟩]

/-- The Route is still served under the first host. -/
theorem host_follows_spec_not :
    computeHost (routeController.exec shopRoute shopEdits) = "new.example" ∧
      statusHost (routeController.exec shopRoute shopEdits) = some "old.example" ∧
      extractHost (routeController.exec shopRoute shopEdits) = some "old.example" := by
  decide +kernel

end Picoshift.Route
