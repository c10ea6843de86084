/-
# What becomes of a port number

A port number comes as a JSON integer out of a Route, an HTTPRoute or a DestinationRule, and no schema bounds
it.  It is read as a `u64`, cut to an `i32` and then to a `u16` in the proxy, and cut to a `u16` at once in the
gateway; a Route and an HTTPRoute go on with 80 where it cannot be read as a `u64`.

Nothing on the way rejects a number.  A Route or an HTTPRoute with a number outside 0..65535 is served, on the
number's last 16 bits or on 80, and a DestinationRule is recorded for its last 16 bits, unless the number
cannot be read at all (`ports_exact_iff`).
-/
import Picoshift.Gateway.Routing
import Picoshift.Gateway.Tls
import Picoshift.Proxy.Resolve
import Picoshift.Proxy.RouteTable

namespace Picoshift.Gateway

open Proxy

/-! ## 1. The casts -/

/-- What is left of a number: its last 16 bits, or 80 where it is no `u64`. -/
def castPort (n : Int) : Nat := (Json.num n).asU64.getD 80 % 65536

/-- The number is left as it is exactly when it is a port. -/
theorem castPort_eq_iff (n : Int) : (castPort n : Int) = n ↔ 0 ≤ n ∧ n < 65536 := by
  rw [castPort, Json.asU64]
  split
  · rw [Option.getD_some]
    omega
  · rw [Option.getD_none]
    omega

theorem bmod_emod_of_dvd (x : Int) {m d : Nat} (h : d ∣ m) : x.bmod m % (d : Int) = x % (d : Int) := by
  have hdvd : (d : Int) ∣ (m : Int) := Int.natCast_dvd_natCast.mpr h
  rw [← Int.emod_emod_of_dvd (x.bmod m) hdvd, Int.bmod_emod, Int.emod_emod_of_dvd x hdvd]

/-- The way over an `i32` makes no difference. -/
theorem asU16_asI32 (n : Nat) : asU16 (asI32 n) = n % 65536 := by
  have hcut : asI32 n % (65536 : Nat) = n % (65536 : Nat) :=
    bmod_emod_of_dvd n (Nat.dvd_of_mod_eq_zero rfl)
  rw [asU16]
  omega

/-! ## 2. Routes -/

/-- `spec.port.targetPort` of a Route. -/
def routeTargetPort (route : DynamicObject) : Option Json :=
  ((route.data.get "spec").bind (·.get "port")).bind (·.get "targetPort")

/-- A Route with this target port is served on exactly this port, or not at all. -/
def RouteExact (n : Int) : Prop :=
  ∀ route host backend, routeTargetPort route = some (.num n) → routeEntry route = some (host, backend) →
    ∀ svc ep addr, resolveEndpoint svc ep backend = some addr → (addr.port : Int) = n

/-- The backend of a Route with a number. -/
theorem targetPort_of_routeEntry {route : DynamicObject} {host : String} {backend : RouteBackend} {n : Int}
    (hport : routeTargetPort route = some (.num n)) (hentry : routeEntry route = some (host, backend)) :
    ∃ m, backend.targetPort = .number m ∧ asU16 m = castPort n := by
  rw [routeEntry] at hentry
  obtain ⟨host', -, hentry⟩ := Option.bind_eq_some_iff.mp hentry
  obtain ⟨⟨svcName, target, tls⟩, hbackend, hentry⟩ := Option.bind_eq_some_iff.mp hentry
  obtain ⟨spec, hspec, hbackend⟩ := Option.bind_eq_some_iff.mp hbackend
  obtain ⟨dest, -, hbackend⟩ := Option.bind_eq_some_iff.mp hbackend
  obtain ⟨name, -, hbackend⟩ := Option.bind_eq_some_iff.mp hbackend
  obtain ⟨svcName', -, hbackend⟩ := Option.bind_eq_some_iff.mp hbackend
  rw [routeTargetPort, hspec, Option.bind_some] at hport
  cases hentry
  cases hbackend
  rw [extractPort, hport, castPort]
  cases hread : (Json.num n).asU64 with
  | some k => exact ⟨asI32 k, by simp [hread], by rw [asU16_asI32, Option.getD_some]⟩
  | none => exact ⟨80, by simp [hread, Json.asStr], rfl⟩

/-- A Route to the Service `api`, with a target port. -/
def apiRouteTo (n : Int) : DynamicObject where
  name := some "api"
  ns := some "shop"
  data := .obj [("spec", .obj [("host", .str "api.shop.test"), ("to", .obj [("name", .str "api")]),
    ("port", .obj [("targetPort", .num n)])])]

/-- A Service with a cluster IP. -/
def apiService : Service := ⟨some "api", some "shop", some ⟨some "10.0.0.1", none⟩⟩

/-- The Service is dialled on what is left of the number. -/
theorem exists_dial (n : Int) : ∃ host backend addr, routeTargetPort (apiRouteTo n) = some (.num n) ∧
    routeEntry (apiRouteTo n) = some (host, backend) ∧
    resolveEndpoint (some apiService) none backend = some addr ∧ addr.port = castPort n := by
  have hport : routeTargetPort (apiRouteTo n) = some (.num n) := rfl
  obtain ⟨host, backend, hentry⟩ : ∃ host backend, routeEntry (apiRouteTo n) = some (host, backend) :=
    ⟨_, _, rfl⟩
  obtain ⟨m, hm, hcast⟩ := targetPort_of_routeEntry hport hentry
  have hip : IpAddr.parse "10.0.0.1" = some (.v4 [10, 0, 0, 1]) := by decide +kernel
  have hdial : resolveEndpoint (some apiService) none backend = some ⟨.v4 [10, 0, 0, 1], asU16 m⟩ := by
    rw [resolveEndpoint, hm]
    simp [clusterAddr, apiService, hip, clusterPort]
  exact ⟨host, backend, _, hport, hentry, hdial, hcast⟩

theorem routeExact_iff (n : Int) : RouteExact n ↔ 0 ≤ n ∧ n < 65536 := by
  rw [← castPort_eq_iff]
  constructor
  · intro hexact
    obtain ⟨host, backend, addr, hport, hentry, hdial, hcast⟩ := exists_dial n
    rw [← hcast]
    exact hexact _ host backend hport hentry _ _ addr hdial
  · intro hcast route host backend hport hentry svc ep addr hdial
    obtain ⟨m, hm, hcast'⟩ := targetPort_of_routeEntry hport hentry
    rw [(resolveEndpoint_eq_some hdial).2 m hm, hcast', hcast]

/-! ## 3. HTTPRoutes -/

/-- `backendRefs` of a rule. -/
def backendRefs (rule : Json) : List Json := ((rule.get "backendRefs").bind Json.asArray).getD []

/-- How the cluster of a Service's port is called. -/
def clusterNameAt (svc ns : String) (n : Int) : String := svc ++ "_" ++ ns ++ "_" ++ toString n

/-- The files have a port number for a backend: there is a cluster by the name with that number, with an
endpoint on it, and the rules that send their traffic to the backend name that cluster. -/
structure WritesPort (rules : List HttpRouteRule) (tlsPorts : List UInt16) (b : HttpRouteBackend) (n : Int) :
    Prop where
  cds : ∃ item ∈ cdsItems rules tlsPorts, "  name: " ++ clusterNameAt b.serviceName b.ns n ∈ item ∧
    "              port_value: " ++ toString n ∈ item
  rds : ∀ rule ∈ rules, rule.backends.head? = some b →
    ⟨rule.pathPrefix, clusterNameAt b.serviceName b.ns n⟩ ∈ emittedRoutes rules

/-- A backend of an HTTPRoute with this port is written with exactly this port, or not at all. -/
def HttpRouteExact (n : Int) : Prop :=
  ∀ (routes : List DynamicObject) (tlsPorts : List UInt16), ∀ route ∈ routes, ∀ rule ∈ ruleArr route,
    ∀ ref ∈ backendRefs rule, ref.get "port" = some (.num n) →
    ∀ b, ruleBackend (route.ns.getD "") ref = some b →
      WritesPort (routes.flatMap extractHttprouteRules) tlsPorts b n

/-- The port of a backend is what is left of the number. -/
theorem port_of_ruleBackend {routeNs : String} {ref : Json} {n : Int} {b : HttpRouteBackend}
    (hport : ref.get "port" = some (.num n)) (hb : ruleBackend routeNs ref = some b) :
    b.port.toNat = castPort n := by
  rw [ruleBackend] at hb
  simp only [hport, Option.bind_some] at hb
  split at hb
  · cases hb
  · obtain rfl := Option.some.inj hb
    exact UInt16.toNat_ofNat'

theorem toString_int_inj {m : Nat} {n : Int} (h : toString n = toString m) : n = m := by
  have hlist := congrArg String.toList h
  cases n with
  | ofNat k =>
    rw [Str.toList_toString] at hlist
    exact congrArg Int.ofNat (Str.toDigits_inj ((Str.toList_toString k).symm.trans hlist))
  | negSucc k =>
    -- a negative number begins with a sign
    have hminus : '-' ∈ (toString (Int.negSucc k)).toList := by
      show '-' ∈ ("-" ++ toString (k + 1)).toList
      simp
    rw [hlist, Str.toList_toString] at hminus
    exact absurd hminus (Str.not_mem_toDigits (by decide) m)

/-- The port in the name of a cluster. -/
theorem clusterNameAt_eq_iff (b : HttpRouteBackend) (n : Int) :
    clusterNameAt b.serviceName b.ns n = clusterName b ↔ n = b.port.toNat := by
  rw [clusterNameAt, clusterName, String.append_right_inj]
  constructor
  · exact toString_int_inj
  · rintro rfl
    rfl

/-- A backend is written under its own port. -/
theorem writesPort_port {rules : List HttpRouteRule} (tlsPorts : List UInt16) {b : HttpRouteBackend}
    (hb : b ∈ rules.flatMap HttpRouteRule.backends) : WritesPort rules tlsPorts b b.port.toNat := by
  have hname : clusterNameAt b.serviceName b.ns b.port.toNat = clusterName b := (clusterNameAt_eq_iff b _).mpr rfl
  constructor
  · -- the cluster may have been written for another backend, with the same name and so the same port
    obtain ⟨b', hb', hsame⟩ := exists_mem_firstSeen hb List.not_mem_nil
    refine ⟨backendLines tlsPorts b', List.mem_cons_of_mem _ (List.mem_map_of_mem hb'), ?_, ?_⟩
    · rw [hname, backendLines, hsame]
      exact List.mem_cons_of_mem _ List.mem_cons_self
    · rw [← port_eq_of_clusterName hsame]
      exact List.mem_append_right _ (List.mem_cons_of_mem _ List.mem_cons_self)
  · intro rule hrule hhead
    rw [hname]
    refine List.mem_filterMap.mpr ⟨rule, ?_, by rw [ruleRoute, hhead, Option.map_some]⟩
    exact (List.perm_insertionSort _ rules).mem_iff.mpr hrule

/-- The backends that are read are among those of the rules. -/
theorem mem_backends {routes : List DynamicObject} {route : DynamicObject} (hroute : route ∈ routes) {rule ref : Json}
    (hrule : rule ∈ ruleArr route) (href : ref ∈ backendRefs rule) {b : HttpRouteBackend}
    (hb : ruleBackend (route.ns.getD "") ref = some b) :
    b ∈ (routes.flatMap extractHttprouteRules).flatMap HttpRouteRule.backends := by
  refine List.mem_flatMap.mpr ⟨extractRule (route.ns.getD "") rule, ?_, List.mem_filterMap.mpr ⟨ref, href, hb⟩⟩
  refine List.mem_flatMap.mpr ⟨route, hroute, ?_⟩
  rw [extractHttprouteRules_eq]
  exact List.mem_map_of_mem hrule

/-- A reference to the Service `api`, with a port. -/
def apiRef (n : Int) : Json := .obj [("name", .str "api"), ("port", .num n)]

/-- An HTTPRoute with one rule and one backend. -/
def apiHttpRoute (n : Int) : DynamicObject where
  name := some "api"
  ns := some "shop"
  data := .obj [("spec", .obj [("rules", .arr [.obj [("backendRefs", .arr [apiRef n])]])])]

theorem httpRouteExact_iff (n : Int) : HttpRouteExact n ↔ 0 ≤ n ∧ n < 65536 := by
  rw [← castPort_eq_iff]
  constructor
  · intro hexact
    obtain ⟨b, hb⟩ : ∃ b, ruleBackend "shop" (apiRef n) = some b := ⟨_, rfl⟩
    have hwrites := hexact [apiHttpRoute n] [] _ List.mem_cons_self _ List.mem_cons_self _ List.mem_cons_self
      rfl b hb
    have hrules : [apiHttpRoute n].flatMap extractHttprouteRules = [⟨"/", [b]⟩] := by
      rw [List.flatMap_cons, List.flatMap_nil, List.append_nil]
      show [HttpRouteRule.mk "/" ([apiRef n].filterMap (ruleBackend "shop"))] = _
      rw [List.filterMap_cons_some hb, List.filterMap_nil]
    rw [hrules] at hwrites
    have hroute := hwrites.rds ⟨"/", [b]⟩ List.mem_cons_self rfl
    have hname := (RouteEntry.mk.inj (List.mem_singleton.mp hroute)).2
    rw [← port_of_ruleBackend rfl hb, ← (clusterNameAt_eq_iff b n).mp hname]
  · intro hcast routes tlsPorts route hroute rule hrule ref href hport b hb
    have hwrites := writesPort_port tlsPorts (mem_backends hroute hrule href hb)
    rwa [port_of_ruleBackend hport hb, hcast] at hwrites

/-! ## 4. DestinationRules -/

/-- A port setting with this number is recorded for exactly this port, or not at all. -/
def DestinationRuleExact (n : Int) : Prop :=
  ∀ dr, ∀ setting ∈ portLevelSettings dr, (setting.get "port").bind (·.get "number") = some (.num n) →
    ∀ port, tlsPort setting = some port → (port.toNat : Int) = n

/-- A DestinationRule with a TLS mode for one port. -/
def apiDestinationRule (n : Int) : DynamicObject where
  name := some "api"
  ns := some "shop"
  data := .obj [("spec", .obj [("trafficPolicy", .obj [("portLevelSettings", .arr
    [.obj [("port", .obj [("number", .num n)]), ("tls", .obj [("mode", .str "SIMPLE")])]])])])]

theorem destinationRuleExact_iff (n : Int) :
    DestinationRuleExact n ↔ n < 65536 ∨ 18446744073709551616 ≤ n := by
  have hread : ∀ setting : Json, (setting.get "port").bind (·.get "number") = some (.num n) →
      portNumber setting = (Json.num n).asU64 := by
    intro setting hport
    rw [portNumber, hport, Option.bind_some]
  constructor
  · intro hexact
    by_contra hout
    have hasU64 : (Json.num n).asU64 = some n.toNat := if_pos (by omega)
    have hrecorded := hexact (apiDestinationRule n) _ List.mem_cons_self rfl (UInt16.ofNat n.toNat)
      (tlsPort_eq_some_iff.mpr ⟨rfl, n.toNat, (hread _ rfl).trans hasU64, (UInt16.toNat_ofNat').symm⟩)
    rw [UInt16.toNat_ofNat'] at hrecorded
    omega
  · intro hrange dr setting _ hport port htls
    obtain ⟨-, k, hk, hcut⟩ := tlsPort_eq_some_iff.mp htls
    rw [hread setting hport, Json.asU64] at hk
    split at hk
    · obtain rfl := Option.some.inj hk
      omega
    · cases hk

/-! ## 5. The three together -/

/-- **Which numbers are taken for what they are.**  A Route and an HTTPRoute are served on exactly the port that
they name, or not at all, when the number is below 65536 and not negative; a DestinationRule is recorded for
exactly its port, or not at all, when the number is below 65536 or cannot be read. -/
theorem ports_exact_iff (n : Int) :
    (RouteExact n ↔ 0 ≤ n ∧ n < 65536) ∧ (HttpRouteExact n ↔ 0 ≤ n ∧ n < 65536) ∧
      (DestinationRuleExact n ↔ n < 65536 ∨ 18446744073709551616 ≤ n) :=
  ⟨routeExact_iff n, httpRouteExact_iff n, destinationRuleExact_iff n⟩

/-- 73616 is taken for 8080 everywhere, and -1 for 80 in the two routes. -/
theorem ports_exact_not : castPort 73616 = 8080 ∧ castPort (-1) = 80 ∧
    (∃ host backend addr, routeTargetPort (apiRouteTo 73616) = some (.num 73616) ∧
      routeEntry (apiRouteTo 73616) = some (host, backend) ∧
      resolveEndpoint (some apiService) none backend = some addr ∧ addr.port = 8080) ∧
    extractTlsPorts (apiDestinationRule 73616) = [8080] ∧
    ¬ HttpRouteExact 73616 ∧ ¬ RouteExact (-1) ∧ ¬ HttpRouteExact (-1) := by
  have hcast : castPort 73616 = 8080 := by decide
  refine ⟨hcast, by decide, hcast ▸ exists_dial 73616, by decide +kernel, ?_, ?_, ?_⟩
  · rw [httpRouteExact_iff]
    decide
  · rw [routeExact_iff]
    decide
  · rw [httpRouteExact_iff]
    decide

end Picoshift.Gateway
