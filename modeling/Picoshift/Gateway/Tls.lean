/-
# Which backends are spoken to in TLS

A DestinationRule is for one host, and sets a TLS mode for ports of that host; `DISABLE` is a mode like
any other.  `sync_httproute_config` keeps nothing of this but the port numbers, cut to 16 bits, of ALL
rules in ONE set.  A cluster then gets a TLS socket when its port is in the set, whichever host the
setting was for and whatever it said.

So no setting is ever missed, and too many are followed: the sockets are right exactly when a mode that is
set on a backend's port, up to multiples of 65536, is backed by a rule for that very backend
(`tls_right_iff`).  Which DestinationRules are for a backend's host is left open (`forHost`): nothing that is
proved here depends on how hosts are written.
-/
import Mathlib.Data.UInt
import Picoshift.Gateway.Clusters
import Picoshift.Gateway.Sync

namespace Picoshift.Gateway

open Proxy (DynamicObject)

/-! ## 1. What a DestinationRule asks for -/

/-- `portLevelSettings`. -/
def portLevelSettings (dr : DynamicObject) : List Json :=
  ((((dr.data.get "spec").bind (·.get "trafficPolicy")).bind
    (·.get "portLevelSettings")).bind Json.asArray).getD []

/-- The TLS mode of a setting. -/
def tlsMode (setting : Json) : Option String := ((setting.get "tls").bind (·.get "mode")).bind Json.asStr

/-- The port number of a setting. -/
def portNumber (setting : Json) : Option Nat := ((setting.get "port").bind (·.get "number")).bind Json.asU64

theorem tlsPort_eq_some_iff {setting : Json} {port : UInt16} : tlsPort setting = some port ↔
    (tlsMode setting).isSome ∧ ∃ n, portNumber setting = some n ∧ n % 2 ^ 16 = port.toNat := by
  have hport : ∀ n, UInt16.ofNat n = port ↔ n % 2 ^ 16 = port.toNat := by
    intro n
    rw [← UInt16.toNat_inj, UInt16.toNat_ofNat']
  rw [tlsPort, ← tlsMode, ← portNumber]
  split
  · rename_i hmode
    simp only [Option.map_eq_some_iff, hport, hmode, true_and]
  · rename_i hmode
    simp [hmode]

theorem mem_extractTlsPorts {dr : DynamicObject} {port : UInt16} : port ∈ extractTlsPorts dr ↔
    ∃ setting ∈ portLevelSettings dr, tlsPort setting = some port := by
  rw [extractTlsPorts, portLevelSettings]
  cases (((dr.data.get "spec").bind (·.get "trafficPolicy")).bind
      (·.get "portLevelSettings")).bind Json.asArray with
  | none => simp
  | some settings => simp

section Host

variable (forHost : DynamicObject → HttpRouteBackend → Prop)

/-- Some DestinationRule for the backend's host sets a TLS mode other than `DISABLE` on exactly its
port. -/
def WantsTls (drs : List DynamicObject) (b : HttpRouteBackend) : Prop :=
  ∃ dr ∈ drs, forHost dr b ∧ ∃ setting ∈ portLevelSettings dr, ∃ mode, tlsMode setting = some mode ∧
    mode ≠ "DISABLE" ∧ portNumber setting = some b.port.toNat

/-- Some DestinationRule, for whatever host, sets some TLS mode on a port with the same last 16 bits. -/
def ModeOnPort (drs : List DynamicObject) (b : HttpRouteBackend) : Prop :=
  ∃ dr ∈ drs, ∃ setting ∈ portLevelSettings dr, (tlsMode setting).isSome ∧
    ∃ n, portNumber setting = some n ∧ n % 2 ^ 16 = b.port.toNat

/-- This is what the set of ports knows. -/
theorem contains_tlsPorts_iff (around : Surroundings) (b : HttpRouteBackend) :
    around.tlsPorts.contains b.port = true ↔ ModeOnPort around.destinationRules b := by
  rw [List.contains_iff_mem, Surroundings.tlsPorts, List.mem_flatMap, ModeOnPort]
  simp only [mem_extractTlsPorts, tlsPort_eq_some_iff]

variable {forHost}

theorem WantsTls.modeOnPort {drs : List DynamicObject} {b : HttpRouteBackend}
    (h : WantsTls forHost drs b) : ModeOnPort drs b := by
  obtain ⟨dr, hdr, -, setting, hsetting, mode, hmode, -, hport⟩ := h
  have hlt : b.port.toNat < 2 ^ 16 := b.port.toNat_lt
  exact ⟨dr, hdr, setting, hsetting, by rw [hmode]; rfl, _, hport, Nat.mod_eq_of_lt hlt⟩

end Host

/-! ## 2. What a cluster gets -/

/-- The cluster file has a cluster by the backend's name that speaks TLS. -/
def HasTlsSocket (routes : List HttpRouteRule) (tlsPorts : List UInt16) (b : HttpRouteBackend) : Prop :=
  ∃ item ∈ cdsItems routes tlsPorts, "  name: " ++ clusterName b ∈ item ∧ "  transport_socket:" ∈ item

/-- Backends whose clusters have the same name have the same port, whatever they are called. -/
theorem port_eq_of_clusterName {b b' : HttpRouteBackend} (h : clusterName b = clusterName b') :
    b.port = b'.port := by
  have hlist := congrArg String.toList h
  rw [toList_clusterName, toList_clusterName, ← List.cons_append, ← List.cons_append,
    ← List.append_assoc, ← List.append_assoc] at hlist
  obtain ⟨-, hport⟩ := Str.append_cons_inj_right (Str.not_mem_toDigits (by decide) _)
    (Str.not_mem_toDigits (by decide) _) hlist
  exact UInt16.toNat_inj.mp (Str.toDigits_inj hport)

/-- The line with a name stands in the lines of the cluster by that name. -/
theorem eq_of_name_mem_clusterLines {n name : String} {tls : Bool} {svc ns : String} {port : UInt16}
    (h : "  name: " ++ n ∈ clusterLines name tls svc ns port) : n = name := by
  -- every other line differs from it in the first nine characters
  have hclash : ∀ l : String, Str.startsWith l "  name: " = false → "  name: " ++ n ≠ l := by
    rintro l hl rfl
    rw [Str.startsWith_append] at hl
    cases hl
  rcases List.mem_cons.mp h with h | h
  · exact absurd h (hclash _ ((Str.startsWith_ofList _ _).trans (by decide)))
  · rcases mem_clusterLines h with h | h | h | h | h
    · have hfixed : ∀ l ∈ fixedLines, Str.startsWith l "  name: " = false := by
        simp only [fixedLines, tlsBlock, List.cons_append, List.nil_append, List.forall_mem_cons]
        repeat refine ⟨(Str.startsWith_ofList _ _).trans (by decide), ?_⟩
        exact fun l hl => absurd hl List.not_mem_nil
      exact absurd rfl (hclash _ (hfixed _ h))
    · exact (String.append_right_inj _).mp h
    · exact absurd h (hclash _ (Str.startsWith_append_of_clash (Str.clash_ofList (by decide)) _))
    · exact absurd h (hclash _ (Str.startsWith_append_of_clash (Str.clash_ofList (by decide)) _))
    · exact absurd h (hclash _ (Str.startsWith_append_of_clash (Str.clash_ofList (by decide)) _))

/-- A backend's cluster speaks TLS exactly when its port is in the set. -/
theorem hasTlsSocket_iff {routes : List HttpRouteRule} (tlsPorts : List UInt16) {b : HttpRouteBackend}
    (hb : b ∈ routes.flatMap HttpRouteRule.backends) :
    HasTlsSocket routes tlsPorts b ↔ tlsPorts.contains b.port = true := by
  constructor
  · rintro ⟨item, hitem, hname, hsocket⟩
    rcases List.mem_cons.mp hitem with rfl | hitem
    · exact absurd (eq_of_name_mem_clusterLines hname) (clusterName_ne_kubeAuthProxySvc b)
    · obtain ⟨b', -, rfl⟩ := List.mem_map.mp hitem
      have hport := port_eq_of_clusterName (eq_of_name_mem_clusterLines hname)
      have hcontains := contains_transportSocket (clusterName b') (tlsPorts.contains b'.port)
        b'.serviceName b'.ns b'.port
      rw [hport, ← hcontains]
      exact List.contains_iff_mem.mpr hsocket
  · intro hport
    -- the cluster may have been written for another backend, with the same name and so the same port
    obtain ⟨b', hb', hname⟩ := exists_mem_firstSeen hb List.not_mem_nil
    have hcontains := contains_transportSocket (clusterName b') (tlsPorts.contains b'.port)
      b'.serviceName b'.ns b'.port
    rw [port_eq_of_clusterName hname, hport] at hcontains
    refine ⟨backendLines tlsPorts b', List.mem_cons_of_mem _ (List.mem_map_of_mem hb'), ?_, ?_⟩
    · rw [backendLines, hname]
      exact List.mem_cons_of_mem _ List.mem_cons_self
    · rw [backendLines, port_eq_of_clusterName hname, hport]
      exact List.contains_iff_mem.mp hcontains

/-! ## 3. Where that is right -/

/-- The backends of the routes that are attached to the gateway. -/
def attachedBackends (routes : List DynamicObject) : List HttpRouteBackend :=
  (attachedRules routes).flatMap HttpRouteRule.backends

/-- **A backend is spoken to in TLS exactly when a DestinationRule for its host says so, provided that a
mode on its port, if any rule sets one, comes with such a rule.** -/
theorem tls_right_iff (forHost : DynamicObject → HttpRouteBackend → Prop) (around : Surroundings)
    (routes : List DynamicObject) (b : HttpRouteBackend) (hb : b ∈ attachedBackends routes) :
    (HasTlsSocket (attachedRules routes) around.tlsPorts b ↔
        WantsTls forHost around.destinationRules b) ↔
      (ModeOnPort around.destinationRules b → WantsTls forHost around.destinationRules b) := by
  rw [hasTlsSocket_iff _ hb, contains_tlsPorts_iff]
  exact ⟨Iff.mp, fun h => ⟨h, WantsTls.modeOnPort⟩⟩

/-- A DestinationRule with one setting. -/
def destinationRule (host : String) (port : Int) (mode : String) : DynamicObject where
  name := some "rule"
  ns := some gatewayNs
  data := .obj [("spec", .obj [("host", .str host), ("trafficPolicy", .obj [("portLevelSettings", .arr
    [.obj [("port", .obj [("number", .num port)]), ("tls", .obj [("mode", .str mode)])]])])])]

/-- A route with one backend. -/
def apiRoute : DynamicObject where
  name := some "api"
  ns := some "shop"
  data := .obj [("spec", .obj [("parentRefs", .arr [.obj [("name", .str "data-science-gateway")]]),
    ("rules", .arr [.obj [("backendRefs", .arr
      [.obj [("name", .str "api"), ("port", .num 8080)]])]])])]

def apiBackend : HttpRouteBackend := ⟨"api", "shop", 8080⟩

/-- The host of a DestinationRule, written out, is that of the Service. -/
def fullHost (dr : DynamicObject) (b : HttpRouteBackend) : Prop :=
  ((dr.data.get "spec").bind (·.get "host")).bind Json.asStr =
    some (b.serviceName ++ "." ++ b.ns ++ ".svc.cluster.local")

instance (dr : DynamicObject) (b : HttpRouteBackend) : Decidable (fullHost dr b) :=
  inferInstanceAs (Decidable (_ = _))

theorem apiBackend_attached : apiBackend ∈ attachedBackends [apiRoute] := by decide +kernel

theorem tls_right_apiRoute : apiBackend ∈ attachedBackends [apiRoute] ∧
    (HasTlsSocket (attachedRules [apiRoute])
        (Surroundings.tlsPorts ⟨none, [destinationRule "api.shop.svc.cluster.local" 8080 "SIMPLE"]⟩)
        apiBackend ↔
      WantsTls fullHost [destinationRule "api.shop.svc.cluster.local" 8080 "SIMPLE"] apiBackend) :=
  ⟨apiBackend_attached, (tls_right_iff fullHost
    ⟨none, [destinationRule "api.shop.svc.cluster.local" 8080 "SIMPLE"]⟩ [apiRoute] apiBackend
    apiBackend_attached).mpr fun _ => ⟨_, List.mem_cons_self, by decide +kernel, _, List.mem_cons_self,
      "SIMPLE", by decide +kernel, by decide, by decide +kernel⟩⟩

/-- A setting that disables TLS, a setting for another host and a setting for a port that does not
exist all turn TLS on, the first and the third however hosts are read. -/
theorem tls_right_not :
    (∀ forHost, ¬ (HasTlsSocket (attachedRules [apiRoute])
        (Surroundings.tlsPorts ⟨none, [destinationRule "api.shop.svc.cluster.local" 8080 "DISABLE"]⟩)
        apiBackend ↔
      WantsTls forHost [destinationRule "api.shop.svc.cluster.local" 8080 "DISABLE"] apiBackend)) ∧
    ¬ (HasTlsSocket (attachedRules [apiRoute])
        (Surroundings.tlsPorts ⟨none, [destinationRule "db.shop.svc.cluster.local" 8080 "SIMPLE"]⟩)
        apiBackend ↔
      WantsTls fullHost [destinationRule "db.shop.svc.cluster.local" 8080 "SIMPLE"] apiBackend) ∧
    (∀ forHost, ¬ (HasTlsSocket (attachedRules [apiRoute])
        (Surroundings.tlsPorts ⟨none, [destinationRule "api.shop.svc.cluster.local" 73616 "SIMPLE"]⟩)
        apiBackend ↔
      WantsTls forHost [destinationRule "api.shop.svc.cluster.local" 73616 "SIMPLE"] apiBackend)) := by
  have hsocket : ∀ dr, (extractTlsPorts dr).contains 8080 = true →
      HasTlsSocket (attachedRules [apiRoute]) (Surroundings.tlsPorts ⟨none, [dr]⟩) apiBackend := by
    intro dr hdr
    refine (hasTlsSocket_iff _ apiBackend_attached).mpr ?_
    rw [Surroundings.tlsPorts, List.flatMap_cons, List.flatMap_nil, List.append_nil]
    exact hdr
  refine ⟨fun forHost h => ?_, fun h => ?_, fun forHost h => ?_⟩
  · obtain ⟨dr, hdr, -, setting, hsetting, mode, hmode, hne, -⟩ :=
      h.mp (hsocket _ (by decide +kernel))
    rw [List.mem_singleton.mp hdr] at hsetting
    rw [List.mem_singleton.mp hsetting] at hmode
    exact hne (Option.some.inj hmode).symm
  · obtain ⟨dr, hdr, hhost, -⟩ := h.mp (hsocket _ (by decide +kernel))
    rw [List.mem_singleton.mp hdr] at hhost
    exact absurd (Option.some.inj hhost) (by decide +kernel)
  · obtain ⟨dr, hdr, -, setting, hsetting, mode, -, -, hport⟩ :=
      h.mp (hsocket _ (by decide +kernel))
    rw [List.mem_singleton.mp hdr] at hsetting
    rw [List.mem_singleton.mp hsetting] at hport
    exact absurd (Option.some.inj hport) (by decide)

end Picoshift.Gateway
