/-
# Whose gateway is it?

A parent reference of an HTTPRoute names a Gateway and, where it likes, a namespace; without one the
route's own is meant.  Two programs follow these references.  The PROXY resolves each to a pair of a
name and a namespace, and looks for the Gateway there.  The GATEWAY CONTROLLER only compares the
name: a reference to a Gateway of that name in any other namespace makes it take over the rules.

Everything the proxy does with a reference goes through the pair (`gatewayWrites_eq`), and everything
the controller does goes through the comparison (`treatedAsAttached_iff`).  So the two agree on a route
exactly when one of its references by that name, if it has any, leads to the controller's namespace
(`attachment_agrees_iff`).
-/
import Picoshift.Gateway.Sync
import Picoshift.Proxy.RouteTable

namespace Picoshift.Gateway

open Proxy (DynamicObject specArray hostnames listenerHosts gatewayPort gatewayWrites parentWrites)

/-! ## 1. The proxy -/

/-- The name and the namespace that `build_gateway_route_table` looks a parent up with. -/
def resolveParent (routeNs : String) (parent : Json) : Option (String × String) :=
  ((parent.get "name").bind Json.asStr).map fun gwName =>
    (gwName, ((parent.get "namespace").bind Json.asStr).getD routeNs)

/-- The Gateways that a route's parents resolve to. -/
def resolvedGateways (route : DynamicObject) : List (String × String) :=
  (specArray route "parentRefs").filterMap (resolveParent (route.ns.getD ""))

/-- What one of them makes the proxy write. -/
def resolvedWrites (api : Proxy.Api) (hosts : List String) (gw : String × String) :
    List (String × Proxy.RouteBackend) :=
  let allHosts := if hosts = [] then ((api.gateway gw.2 gw.1).map listenerHosts).getD [] else hosts
  match (api.services gw.2 gw.1).bind List.head? with
  | none => []
  | some svc =>
    let (port, tls) := gatewayPort svc
    allHosts.map fun host => (host, ⟨svc.name.getD "", svc.ns.getD gw.2, .number port, tls⟩)

/-- The proxy knows of a route's parents what they resolve to. -/
theorem gatewayWrites_eq (api : Proxy.Api) (route : DynamicObject) :
    gatewayWrites api route = (resolvedGateways route).flatMap (resolvedWrites api (hostnames route)) := by
  rw [gatewayWrites, resolvedGateways]
  induction specArray route "parentRefs" with
  | nil => rfl
  | cons parent parents ih =>
    rw [List.flatMap_cons, ih, parentWrites]
    cases hname : (parent.get "name").bind Json.asStr with
    | none =>
      have hresolve : resolveParent (route.ns.getD "") parent = none := by
        rw [resolveParent, hname]
        rfl
      rw [List.filterMap_cons_none hresolve]
      rfl
    | some gwName =>
      have hresolve : resolveParent (route.ns.getD "") parent =
          some (gwName, ((parent.get "namespace").bind Json.asStr).getD (route.ns.getD "")) := by
        rw [resolveParent, hname]
        rfl
      rw [List.filterMap_cons_some hresolve, List.flatMap_cons]
      rfl

/-- The proxy resolves a parent of the route to the gateway. -/
def ProxyResolves (route : DynamicObject) : Prop := (gatewayName, gatewayNs) ∈ resolvedGateways route

/-! ## 2. The controller -/

/-- What the controller does with a route that is attached to the gateway: its rules are among those
that the configuration is made from, and a change of the route makes a new configuration. -/
structure TreatedAsAttached (route : DynamicObject) : Prop where
  synced : ∀ before after, attachedRules (before ++ route :: after) =
    attachedRules before ++ extractHttprouteRules route ++ attachedRules after
  reconciled : ∀ around s,
    (reconcileHttproute around s route).config = syncHttprouteConfig around s.routes

theorem attachedRules_append_cons (before after : List DynamicObject) (route : DynamicObject) :
    attachedRules (before ++ route :: after) = attachedRules before ++
      (if referencesOurGateway route then extractHttprouteRules route else []) ++
        attachedRules after := by
  simp only [attachedRules, List.filter_append, List.flatMap_append, List.filter_cons,
    List.append_assoc]
  split
  · rw [List.flatMap_cons]
  · rfl

/-- The controller knows of a route's parents whether one is called like the gateway. -/
theorem treatedAsAttached_iff (route : DynamicObject) :
    TreatedAsAttached route ↔ referencesOurGateway route = true := by
  constructor
  · intro h
    rw [← Bool.not_eq_false]
    intro href
    -- a configuration that is not the current one would stay
    have hstay : ∀ around config, config = syncHttprouteConfig around [] := by
      intro around config
      have := h.reconciled around ⟨[], config⟩
      rwa [reconcileHttproute, href, if_neg Bool.false_ne_true] at this
    have heq := (hstay ⟨none, []⟩ ⟨"", ""⟩).trans (hstay ⟨none, []⟩ ⟨"stale", ""⟩).symm
    exact absurd (congrArg XdsConfig.rds heq) (by decide)
  · intro href
    refine ⟨fun before after => ?_, fun around s => ?_⟩
    · rw [attachedRules_append_cons, href, if_pos rfl]
    · rw [reconcileHttproute, href, if_pos rfl]

theorem referencesOurGateway_iff (route : DynamicObject) : referencesOurGateway route = true ↔
    ∃ parent ∈ specArray route "parentRefs",
      (parent.get "name").bind Json.asStr = some gatewayName := by
  rw [referencesOurGateway, specArray]
  cases ((route.data.get "spec").bind (·.get "parentRefs")).bind Json.asArray with
  | none => simp
  | some refs => simp

theorem proxyResolves_iff (route : DynamicObject) : ProxyResolves route ↔
    ∃ parent ∈ specArray route "parentRefs",
      (parent.get "name").bind Json.asStr = some gatewayName ∧
        ((parent.get "namespace").bind Json.asStr).getD (route.ns.getD "") = gatewayNs := by
  rw [ProxyResolves, resolvedGateways, List.mem_filterMap]
  refine exists_congr fun parent => and_congr_right fun _ => ?_
  rw [resolveParent, Option.map_eq_some_iff]
  constructor
  · rintro ⟨gwName, hname, hpair⟩
    obtain ⟨rfl, hns⟩ := Prod.mk.inj hpair
    exact ⟨hname, hns⟩
  · rintro ⟨hname, hns⟩
    exact ⟨gatewayName, hname, by rw [hns]⟩

/-! ## 3. Where they agree -/

/-- Of the parents that are called like the gateway, if there are any, one is in the gateway's
namespace: it says so, or it says nothing and the route is there itself. -/
def LeadsHome (route : DynamicObject) : Prop :=
  (∃ parent ∈ specArray route "parentRefs",
      (parent.get "name").bind Json.asStr = some gatewayName) →
    ∃ parent ∈ specArray route "parentRefs",
      (parent.get "name").bind Json.asStr = some gatewayName ∧
        match (parent.get "namespace").bind Json.asStr with
        | some ns => ns = gatewayNs
        | none => route.ns = some gatewayNs

theorem getD_eq_gatewayNs_iff (ns routeNs : Option String) :
    ns.getD (routeNs.getD "") = gatewayNs ↔
      match ns with
      | some ns => ns = gatewayNs
      | none => routeNs = some gatewayNs := by
  cases ns with
  | some ns => exact Iff.rfl
  | none =>
    cases routeNs with
    | none => exact iff_of_false (by decide +kernel) (by simp)
    | some routeNs => simp

/-- **The controller takes a route for attached to the gateway exactly when the proxy resolves one of
its parents to the gateway, provided one of the parents by that name is in the gateway's namespace.** -/
theorem attachment_agrees_iff (route : DynamicObject) :
    (TreatedAsAttached route ↔ ProxyResolves route) ↔ LeadsHome route := by
  have hhome : ProxyResolves route ↔ ∃ parent ∈ specArray route "parentRefs",
      (parent.get "name").bind Json.asStr = some gatewayName ∧
        match (parent.get "namespace").bind Json.asStr with
        | some ns => ns = gatewayNs
        | none => route.ns = some gatewayNs := by
    rw [proxyResolves_iff]
    refine exists_congr fun parent => and_congr_right fun _ => and_congr_right fun _ => ?_
    exact getD_eq_gatewayNs_iff _ _
  -- what the proxy resolves is called like the gateway in any case
  have hname : ProxyResolves route → TreatedAsAttached route := by
    rw [proxyResolves_iff, treatedAsAttached_iff, referencesOurGateway_iff]
    rintro ⟨parent, hmem, hname, -⟩
    exact ⟨parent, hmem, hname⟩
  rw [LeadsHome, ← hhome, ← referencesOurGateway_iff, ← treatedAsAttached_iff]
  exact ⟨Iff.mp, fun h => ⟨h, hname⟩⟩

/-- A route of some team, for a gateway of that team that is called like the shared one. -/
def teamRoute : DynamicObject where
  name := some "shop"
  ns := some "team-a"
  data := .obj [("spec", .obj [("parentRefs", .arr [.obj [("name", .str "data-science-gateway")]])])]

/-- The shared gateway takes the team's route. -/
theorem attachment_agrees_not : ¬ (TreatedAsAttached teamRoute ↔ ProxyResolves teamRoute) := by
  have href : referencesOurGateway teamRoute = true := by decide +kernel
  have hresolved : resolvedGateways teamRoute = [(gatewayName, "team-a")] := by decide +kernel
  intro h
  have hmem : (gatewayName, gatewayNs) ∈ resolvedGateways teamRoute :=
    h.mp ((treatedAsAttached_iff teamRoute).mpr href)
  rw [hresolved] at hmem
  exact absurd hmem (by decide +kernel)

end Picoshift.Gateway
