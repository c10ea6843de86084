/-
# The controllers of the gateway, request by request

`gateway.rs` runs four controllers side by side, for GatewayClasses, Gateways, HTTPRoutes and DestinationRules.  A
reconcile is a sequence of requests to the API server.  Between two of them the other controllers and the users go
on, a request may be refused, and an answer may be lost after the request was carried out.  So a reconcile is a
program (`Lib/Prog.lean`), and what is proved of the controllers holds in every pool of them.

`reconcile_gateway` writes `Programmed` into the status of a Gateway and never takes it back.  `programmed_has_envoy`
says what stands behind the word, in every interleaving: the objects of its Envoy are there, as the controller makes
them; Envoy finds every file that its files name; and the three files that are made from HTTPRoutes are made from
the same rules.
-/
import Picoshift.Gateway.Listener
import Picoshift.Gateway.Sync
import Picoshift.Lib.Map
import Picoshift.Lib.MergePatch
import Picoshift.Lib.Prog

namespace Picoshift.Gateway

open Proxy (DynamicObject)

/-! ## 1. The objects -/

/-- `CONTROLLER_NAME`. -/
def controllerName : String := "openshift.io/gateway-controller/v1"

/-- `GATEWAY_CLASS_NAME`. -/
def gatewayClassName : String := "data-science-gateway-class"

/-- `TLS_SECRET_NAME`. -/
def tlsSecretName : String := "data-science-gateway-service-tls"

/-- `ENVOY_IMAGE`. -/
def envoyImage : String := "docker.io/envoyproxy/envoy:v1.31-latest"

/-- `SERVICE_PORT`. -/
def servicePort : Nat := 443

/-- A namespace and a name. -/
abbrev ObjectName := String × String

inductive VolumeSource where
  | configMap (name : String)
  | secret (name : String) ( optional : Bool)
  deriving DecidableEq, Repr

structure Volume where
  name : String
  source : VolumeSource
  deriving DecidableEq, Repr

structure VolumeMount where
  name : String
  mountPath : String
  deriving DecidableEq, Repr

/-- A Deployment of one container; its labels are those that it selects. -/
structure Deployment where
  labels : List (String × String)
  image : String
  args : List String
  containerPort : Nat
  volumeMounts : List VolumeMount
  volumes : List Volume
  deriving DecidableEq, Repr

/-- A Service with one port. -/
structure EnvoyService where
  annotations : List (String × String)
  selector : List (String × String)
  port : Nat
  targetPort : Nat
  deriving DecidableEq, Repr

/-- What the controllers read and write. -/
structure Objects where
  routes : List DynamicObject
  destinationRules : List DynamicObject
  gateways : Map ObjectName DynamicObject
  gatewayClasses : Map String DynamicObject
  configMaps : Map ObjectName (Map String String)
  deployments : Map ObjectName Deployment
  services : Map ObjectName EnvoyService

/-! ## 2. Requests -/

inductive Request where
  | listRoutes
  | listDestinationRules (ns : String)
  | getGateway (name : ObjectName)
  | getConfigMap (name : ObjectName)
  | createConfigMap (name : ObjectName) (data : Map String String)
  | patchConfigMap (name : ObjectName) (data : List (String × String))
  | getDeployment (name : ObjectName)
  | createDeployment (name : ObjectName) (deployment : Deployment)
  | getService (name : ObjectName)
  | createService (name : ObjectName) (service : EnvoyService)
  | patchGatewayStatus (name : ObjectName) (status : Json)
  | patchGatewayClassStatus (name : String) (status : Json)

/-- What a request brings. -/
abbrev Value : Request → Type
  | .listRoutes => List DynamicObject
  | .listDestinationRules _ => List DynamicObject
  | .getGateway _ => Option DynamicObject
  | .getConfigMap _ => Option (Map String String)
  | .getDeployment _ => Option Deployment
  | .getService _ => Option EnvoyService
  | _ => Unit

inductive ApiError where
  | notFound
  | alreadyExists
  | unanswered
  deriving DecidableEq, Repr

abbrev Answer (r : Request) : Type := Except ApiError (Value r)

/-- A new object, unless there is one of that name. -/
def create {V : Type} (m : Map ObjectName V) (name : ObjectName) (v : V) :
    Map ObjectName V × Except ApiError Unit :=
  match m.get name with
  | some _ => (m, .error .alreadyExists)
  | none => (m.insert name v, .ok ())

/-- A change of an object that is there. -/
def update {K V : Type} [DecidableEq K] (m : Map K V) (name : K) (f : V → V) :
    Map K V × Except ApiError Unit :=
  match m.get name with
  | some v => (m.insert name (f v), .ok ())
  | none => (m, .error .notFound)

/-- The object with another status. -/
def withStatus (status : Json) (o : DynamicObject) : DynamicObject :=
  { o with data := o.data.merge (.obj [("status", status)]) }

/-- What a request does, and what it brings. -/
def apply (s : Objects) : (r : Request) → Objects × Answer r
  | .listRoutes => (s, .ok s.routes)
  | .listDestinationRules ns => (s, .ok (s.destinationRules.filter fun dr => dr.ns = some ns))
  | .getGateway name => (s, .ok (s.gateways.get name))
  | .getConfigMap name => (s, .ok (s.configMaps.get name))
  | .createConfigMap name data =>
    ({ s with configMaps := (create s.configMaps name data).1 }, (create s.configMaps name data).2)
  | .patchConfigMap name data =>
    ({ s with configMaps := (update s.configMaps name fun old => old.writeAll data).1 },
      (update s.configMaps name fun old => old.writeAll data).2)
  | .getDeployment name => (s, .ok (s.deployments.get name))
  | .createDeployment name deployment =>
    ({ s with deployments := (create s.deployments name deployment).1 },
      (create s.deployments name deployment).2)
  | .getService name => (s, .ok (s.services.get name))
  | .createService name service =>
    ({ s with services := (create s.services name service).1 }, (create s.services name service).2)
  | .patchGatewayStatus name status =>
    ({ s with gateways := (update s.gateways name (withStatus status)).1 },
      (update s.gateways name (withStatus status)).2)
  | .patchGatewayClassStatus name status =>
    ({ s with gatewayClasses := (update s.gatewayClasses name (withStatus status)).1 },
      (update s.gatewayClasses name (withStatus status)).2)

/-- What becomes of a request: it is carried out and answered, it is not carried out, or it is carried out and the
answer is lost. -/
inductive Fate where
  | served
  | refused
  | lost
  deriving DecidableEq, Repr

def apiServer : Api Answer Objects Fate where
  serve
    | .served, s, r => apply s r
    | .refused, s, _ => (s, .error .unanswered)
    | .lost, s, r => ((apply s r).1, .error .unanswered)

/-! ## 3. The programs -/

abbrev Reconciling := Prog Answer (Except ApiError Unit)

/-- One request. -/
abbrev ask (r : Request) : Prog Answer (Answer r) := Prog.ask r

/-- Look for an object, and create it if it is not there. -/
def createMissing {V : Type} (get : Prog Answer (Except ApiError (Option V))) (create : Reconciling) :
    Reconciling :=
  get.andThen fun
    | some _ => .done (.ok ())
    | none => create

def serviceFullName (gatewayName className : String) : String := gatewayName ++ "-" ++ className

/-- The data of the bootstrap ConfigMap. -/
def bootstrapData : Map String String := Map.ofPairs [("bootstrap.yaml", generateBootstrapYaml)]

/-- The three files of Envoy's configuration. -/
def xdsFiles (hostname : String) (rules : List HttpRouteRule) (tlsPorts : List UInt16) :
    List (String × String) :=
  [("lds.yaml", generateLdsYaml hostname),
    ("rds.yaml", generateRdsYaml hostname rules),
    ("cds.yaml", generateCdsYaml rules tlsPorts)]

def ensureEnvoyConfigmaps (ns hostname : String) : Reconciling :=
  (createMissing (ask (.getConfigMap (ns, "envoy-bootstrap")))
    (ask (.createConfigMap (ns, "envoy-bootstrap") bootstrapData))).andThen fun _ =>
  createMissing (ask (.getConfigMap (ns, "envoy-xds-config")))
    (ask (.createConfigMap (ns, "envoy-xds-config") (Map.ofPairs (xdsFiles hostname [] []))))

/-- The Deployment that `ensure_envoy_deployment` creates. -/
def envoyDeployment (gatewayName : String) : Deployment where
  labels := [("app", "envoy-gateway"), ("gateway.networking.k8s.io/gateway-name", gatewayName)]
  image := envoyImage
  args := ["-c", "/etc/envoy/bootstrap/bootstrap.yaml", "--log-level", "info"]
  containerPort := envoyListenPort
  volumeMounts :=
    [⟨"bootstrap", "/etc/envoy/bootstrap"⟩, ⟨"xds", "/etc/envoy/xds"⟩, ⟨"tls", "/etc/envoy/tls"⟩]
  volumes :=
    [⟨"bootstrap", .configMap "envoy-bootstrap"⟩, ⟨"xds", .configMap "envoy-xds-config"⟩,
      ⟨"tls", .secret tlsSecretName true⟩]

def ensureEnvoyDeployment (ns gatewayName : String) : Reconciling :=
  createMissing (ask (.getDeployment (ns, gatewayName)))
    (ask (.createDeployment (ns, gatewayName) (envoyDeployment gatewayName)))

/-- The Service that `ensure_envoy_service` creates. -/
def envoyService : EnvoyService where
  annotations := [("service.beta.openshift.io/serving-cert-secret-name", tlsSecretName)]
  selector := [("app", "envoy-gateway")]
  port := servicePort
  targetPort := envoyListenPort

def ensureEnvoyService (ns svcName : String) : Reconciling :=
  createMissing (ask (.getService (ns, svcName))) (ask (.createService (ns, svcName) envoyService))

/-- `sync_httproute_config`.  The ports are those of no DestinationRule at all when these cannot be listed. -/
def syncConfig (ns hostname : String) : Reconciling :=
  (ask .listRoutes).andThen fun routeList =>
  (ask (.listDestinationRules ns)).bind fun drList =>
  ask (.patchConfigMap (ns, "envoy-xds-config") (xdsFiles hostname (attachedRules routeList)
    ((drList.toOption.getD []).flatMap extractTlsPorts)))

/-- There is a condition of this type with the status `True`. -/
def hasCondition (type : String) (o : DynamicObject) : Bool :=
  ((((o.data.get "status").bind (·.get "conditions")).bind Json.asArray).map fun arr =>
    arr.any fun cond => (cond.get "type").bind Json.asStr == some type &&
      (cond.get "status").bind Json.asStr == some "True").getD false

def isGatewayClassAccepted (gc : DynamicObject) : Bool := hasCondition "Accepted" gc

def isGatewayAccepted (gw : DynamicObject) : Bool := hasCondition "Accepted" gw

def isOurGatewayClass (gc : DynamicObject) : Bool :=
  ((gc.data.get "spec").bind (·.get "controllerName")).bind Json.asStr == some controllerName

/-- One condition that is true. -/
def condition (type message now : String) (generation : Int) : Json :=
  .obj
    [("type", .str type),
      ("status", .str "True"),
      ("reason", .str type),
      ("message", .str message),
      ("lastTransitionTime", .str now),
      ("observedGeneration", .num generation)]

/-- An object that a controller is called for, with its generation and the time of the call. -/
structure Called where
  object : DynamicObject
  generation : Option Int
  now : String

def reconcileGatewayClass (gc : Called) : Reconciling :=
  if !isOurGatewayClass gc.object || isGatewayClassAccepted gc.object then .done (.ok ())
  else
    ask (.patchGatewayClassStatus (gc.object.name.getD "") (.obj [("conditions", .arr
      [condition "Accepted" "GatewayClass accepted by ocp-sim" gc.now (gc.generation.getD 0)])]))

/-- The status of a Gateway. -/
def gatewayStatus (now : String) (generation : Int) : Json :=
  .obj
    [("conditions", .arr
      [condition "Accepted" "Gateway accepted by ocp-sim" now generation,
        condition "Programmed" "Envoy configured by ocp-sim" now generation]),
      ("listeners", .arr [.obj
        [("name", .str "https"),
          ("supportedKinds", .arr
            [.obj [("group", .str "gateway.networking.k8s.io"), ("kind", .str "HTTPRoute")]]),
          ("attachedRoutes", .num 0),
          ("conditions", .arr [.obj
            [("type", .str "Accepted"),
              ("status", .str "True"),
              ("reason", .str "Accepted"),
              ("lastTransitionTime", .str now),
              ("observedGeneration", .num generation)]])]])]

def className (gw : DynamicObject) : String :=
  (((gw.data.get "spec").bind (·.get "gatewayClassName")).bind Json.asStr).getD ""

def reconcileGateway (gw : Called) : Reconciling :=
  let name := gw.object.name.getD ""
  let ns := gw.object.ns.getD ""
  if className gw.object ≠ gatewayClassName then .done (.ok ())
  else
    let hostname := (extractListenerHostname gw.object).getD ""
    let svcName := serviceFullName name (className gw.object)
    (ensureEnvoyConfigmaps ns hostname).andThen fun _ =>
    (ensureEnvoyDeployment ns name).andThen fun _ =>
    (ensureEnvoyService ns svcName).andThen fun _ =>
    (syncConfig ns hostname).andThen fun _ =>
    if isGatewayAccepted gw.object then .done (.ok ())
    else ask (.patchGatewayStatus (ns, name) (gatewayStatus gw.now (gw.generation.getD 0)))

/-- The end of `reconcile_httproute` and all of `reconcile_destination_rule`. -/
def syncGateway : Reconciling :=
  (ask (.getGateway (gatewayNs, gatewayName))).andThen fun gw =>
  syncConfig gatewayNs ((gw.bind extractListenerHostname).getD "")

/-- What a controller is called for. -/
inductive Reconcile where
  | gatewayClass (gc : Called)
  | gateway (gw : Called)
  | httproute (route : DynamicObject)
  | destinationRule (dr : DynamicObject)

def program : Reconcile → Reconciling
  | .gatewayClass gc => reconcileGatewayClass gc
  | .gateway gw => reconcileGateway gw
  | .httproute route => if referencesOurGateway route then syncGateway else .done (.ok ())
  | .destinationRule _ => syncGateway

/-- The four controllers. -/
def controllers : Machine (Pool Answer Objects Reconcile (Except ApiError Unit))
    (Move Objects Fate Reconcile) Unit := pool apiServer program

/-! ## 4. What the controllers leave alone -/

section Respects

variable (ns name : String)

/-- The object of a map is still there, and if it is new it is as it should be. -/
structure KeptOr {V : Type} (right : V → Prop) (old new : Option V) : Prop where
  kept : ∀ v, old = some v → new = some v
  right : ∀ v, new = some v → old = some v ∨ right v

/-- The files are those of one list of rules. -/
def FilesOk (data : Map String String) : Prop :=
  ∃ hostname rules tlsPorts, ∀ file ∈ xdsFiles hostname rules tlsPorts, data.get file.1 = some file.2

/-- The status of the Gateway says that it is programmed. -/
def Programmed (s : Objects) : Prop := ∃ gw, s.gateways.get (ns, name) = some gw ∧ hasCondition "Programmed" gw = true

/-- The objects of the Gateway's Envoy are there. -/
structure HasEnvoy (s : Objects) : Prop where
  bootstrap : (s.configMaps.get (ns, "envoy-bootstrap")).isSome = true
  xds : (s.configMaps.get (ns, "envoy-xds-config")).isSome = true
  deployment : (s.deployments.get (ns, name)).isSome = true
  service : (s.services.get (ns, serviceFullName name gatewayClassName)).isSome = true

/-- What happens to the objects of a Gateway: they are created as they should be and stay, the files are those of some
rules, and `Programmed` comes when the objects are there. -/
structure Respects (s s' : Objects) : Prop where
  bootstrap : KeptOr (· = bootstrapData) (s.configMaps.get (ns, "envoy-bootstrap"))
    (s'.configMaps.get (ns, "envoy-bootstrap"))
  xdsKept : (s.configMaps.get (ns, "envoy-xds-config")).isSome = true →
    (s'.configMaps.get (ns, "envoy-xds-config")).isSome = true
  xds : ∀ data, s'.configMaps.get (ns, "envoy-xds-config") = some data →
    s.configMaps.get (ns, "envoy-xds-config") = some data ∨ FilesOk data
  deployment : KeptOr (· = envoyDeployment name) (s.deployments.get (ns, name)) (s'.deployments.get (ns, name))
  service : KeptOr (· = envoyService) (s.services.get (ns, serviceFullName name gatewayClassName))
    (s'.services.get (ns, serviceFullName name gatewayClassName))
  programmed : Programmed ns name s' → Programmed ns name s ∨ HasEnvoy ns name s'

end Respects

theorem KeptOr.refl {V : Type} (right : V → Prop) (o : Option V) : KeptOr right o o :=
  ⟨fun _ h => h, fun _ h => Or.inl h⟩

theorem KeptOr.trans {V : Type} {right : V → Prop} {a b c : Option V} (h : KeptOr right a b)
    (h' : KeptOr right b c) : KeptOr right a c := by
  refine ⟨fun v hv => h'.kept v (h.kept v hv), fun v hv => ?_⟩
  rcases h'.right v hv with hv | hv
  · exact h.right v hv
  · exact Or.inr hv

theorem KeptOr.isSome {V : Type} {right : V → Prop} {a b : Option V} (h : KeptOr right a b)
    (ha : a.isSome = true) : b.isSome = true := by
  obtain ⟨v, hv⟩ := Option.isSome_iff_exists.mp ha
  rw [h.kept v hv]
  rfl

/-- A creation keeps what is there. -/
theorem keptOr_create {V : Type} {right : V → Prop} {m : Map ObjectName V} {key name : ObjectName} {v : V}
    (h : key = name → right v) : KeptOr right (m.get key) ((create m name v).1.get key) := by
  unfold create
  cases hname : m.get name with
  | some _ => exact .refl right _
  | none =>
    by_cases hkey : key = name
    · rw [hkey, hname, Map.get_insert_self]
      refine ⟨nofun, fun w hw => Or.inr ?_⟩
      cases hw
      exact h hkey
    · rw [Map.get_insert_ne _ hkey]
      exact .refl right _

theorem get_create_ne {V : Type} {m : Map ObjectName V} {key name : ObjectName} (h : key ≠ name) (v : V) :
    (create m name v).1.get key = m.get key := by
  unfold create
  split
  · rfl
  · exact Map.get_insert_ne _ h

theorem get_update_ne {K V : Type} [DecidableEq K] {m : Map K V} {key name : K} (h : key ≠ name) (f : V → V) :
    (update m name f).1.get key = m.get key := by
  unfold update
  split
  · exact Map.get_insert_ne _ h
  · rfl

theorem get_update_self {K V : Type} [DecidableEq K] (m : Map K V) (name : K) (f : V → V) :
    (update m name f).1.get name = (m.get name).map f := by
  unfold update
  cases hname : m.get name with
  | some v => exact Map.get_insert_self _ _ _
  | none => exact hname

variable {ns name : String}

theorem HasEnvoy.stable {s s' : Objects} (h : HasEnvoy ns name s) (hs : Respects ns name s s') :
    HasEnvoy ns name s' :=
  ⟨hs.bootstrap.isSome h.bootstrap, hs.xdsKept h.xds, hs.deployment.isSome h.deployment,
    hs.service.isSome h.service⟩

theorem Respects.refl (s : Objects) : Respects ns name s s :=
  ⟨.refl _ _, id, fun _ h => Or.inl h, .refl _ _, .refl _ _, Or.inl⟩

theorem Respects.trans ⦃a b c : Objects⦄ (h : Respects ns name a b) (h' : Respects ns name b c) :
    Respects ns name a c where
  bootstrap := h.bootstrap.trans h'.bootstrap
  xdsKept hx := h'.xdsKept (h.xdsKept hx)
  xds data hdata := by
    rcases h'.xds data hdata with hdata | hok
    · exact h.xds data hdata
    · exact Or.inr hok
  deployment := h.deployment.trans h'.deployment
  service := h.service.trans h'.service
  programmed hp := by
    rcases h'.programmed hp with hp | henvoy
    · rcases h.programmed hp with hp | henvoy
      · exact Or.inl hp
      · exact Or.inr (henvoy.stable h')
    · exact Or.inr henvoy

/-! ## 5. What a request of a controller does -/

/-- The requests that the controllers make; a status only for a Gateway whose Envoy is there, as far as one Gateway is
concerned. -/
inductive Fits (ns name : String) (s : Objects) : Request → Prop
  | listRoutes : Fits ns name s .listRoutes
  | listDestinationRules (ns' : String) : Fits ns name s (.listDestinationRules ns')
  | getGateway (key : ObjectName) : Fits ns name s (.getGateway key)
  | getConfigMap (key : ObjectName) : Fits ns name s (.getConfigMap key)
  | getDeployment (key : ObjectName) : Fits ns name s (.getDeployment key)
  | getService (key : ObjectName) : Fits ns name s (.getService key)
  | bootstrap (ns' : String) : Fits ns name s (.createConfigMap (ns', "envoy-bootstrap") bootstrapData)
  | xds (ns' hostname : String) : Fits ns name s
      (.createConfigMap (ns', "envoy-xds-config") (Map.ofPairs (xdsFiles hostname [] [])))
  | patch (ns' hostname : String) (rules : List HttpRouteRule) (tlsPorts : List UInt16) : Fits ns name s
      (.patchConfigMap (ns', "envoy-xds-config") (xdsFiles hostname rules tlsPorts))
  | deployment (ns' name' : String) : Fits ns name s (.createDeployment (ns', name') (envoyDeployment name'))
  | service (ns' name' : String) : Fits ns name s
      (.createService (ns', serviceFullName name' gatewayClassName) envoyService)
  | status (ns' name' : String) (status : Json) (h : (ns, name) = (ns', name') → HasEnvoy ns name s) :
      Fits ns name s (.patchGatewayStatus (ns', name') status)
  | classStatus (name' : String) (status : Json) : Fits ns name s (.patchGatewayClassStatus name' status)

/-- What is written is found. -/
theorem get_writeAll_xdsFiles (data : Map String String) (hostname : String) (rules : List HttpRouteRule)
    (tlsPorts : List UInt16) : ∀ file ∈ xdsFiles hostname rules tlsPorts,
      (data.writeAll (xdsFiles hostname rules tlsPorts)).get file.1 = some file.2 := by
  intro file hfile
  have hnodup : ((xdsFiles hostname rules tlsPorts).map Prod.fst).Nodup := by
    show ["lds.yaml", "rds.yaml", "cds.yaml"].Nodup
    decide
  rw [Map.get_writeAll, Map.get_ofPairs_of_mem hnodup hfile, Option.some_or]

theorem filesOk_writeAll (data : Map String String) (hostname : String) (rules : List HttpRouteRule)
    (tlsPorts : List UInt16) : FilesOk (data.writeAll (xdsFiles hostname rules tlsPorts)) :=
  ⟨hostname, rules, tlsPorts, get_writeAll_xdsFiles data hostname rules tlsPorts⟩

/-! One lemma for each request that writes; the others leave the store as it is. -/

theorem respects_createBootstrap (s : Objects) (ns' : String) :
    Respects ns name s (apply s (.createConfigMap (ns', "envoy-bootstrap") bootstrapData)).1 := by
  have hxds : (apply s (.createConfigMap (ns', "envoy-bootstrap") bootstrapData)).1.configMaps.get
      (ns, "envoy-xds-config") = s.configMaps.get (ns, "envoy-xds-config") :=
    get_create_ne (by simp) _
  exact { Respects.refl s with
    bootstrap := keptOr_create fun _ => rfl
    xdsKept := fun h => hxds ▸ h
    xds := fun data hdata => Or.inl (hxds ▸ hdata)
    programmed := Or.inl }

theorem respects_createXds (s : Objects) (ns' hostname : String) :
    Respects ns name s
      (apply s (.createConfigMap (ns', "envoy-xds-config") (Map.ofPairs (xdsFiles hostname [] [])))).1 := by
  have hkept : KeptOr FilesOk (s.configMaps.get (ns, "envoy-xds-config"))
      ((apply s (.createConfigMap (ns', "envoy-xds-config") (Map.ofPairs (xdsFiles hostname [] [])))).1.configMaps.get
        (ns, "envoy-xds-config")) :=
    keptOr_create fun _ => filesOk_writeAll Map.empty hostname [] []
  have hbootstrap : (apply s (.createConfigMap (ns', "envoy-xds-config")
      (Map.ofPairs (xdsFiles hostname [] [])))).1.configMaps.get (ns, "envoy-bootstrap") =
        s.configMaps.get (ns, "envoy-bootstrap") := get_create_ne (by simp) _
  exact { Respects.refl s with
    bootstrap := hbootstrap.symm ▸ KeptOr.refl _ _
    xdsKept := hkept.isSome
    xds := hkept.right
    programmed := Or.inl }

/-- A synchronisation writes all three files at once, so they go together whatever was there. -/
theorem respects_patchXds (s : Objects) (ns' hostname : String) (rules : List HttpRouteRule) (tlsPorts : List UInt16) :
    Respects ns name s
      (apply s (.patchConfigMap (ns', "envoy-xds-config") (xdsFiles hostname rules tlsPorts))).1 := by
  have hbootstrap : (apply s (.patchConfigMap (ns', "envoy-xds-config")
      (xdsFiles hostname rules tlsPorts))).1.configMaps.get (ns, "envoy-bootstrap") =
        s.configMaps.get (ns, "envoy-bootstrap") := get_update_ne (by simp) _
  have hxds : (apply s (.patchConfigMap (ns', "envoy-xds-config")
      (xdsFiles hostname rules tlsPorts))).1.configMaps.get (ns, "envoy-xds-config") =
        if ns = ns' then (s.configMaps.get (ns, "envoy-xds-config")).map
          fun old => old.writeAll (xdsFiles hostname rules tlsPorts)
        else s.configMaps.get (ns, "envoy-xds-config") := by
    split
    · rename_i hns
      subst hns
      exact get_update_self _ _ _
    · rename_i hns
      exact get_update_ne (by simp [hns]) _
  refine { Respects.refl s with
    bootstrap := hbootstrap.symm ▸ KeptOr.refl _ _
    xdsKept := fun h => ?_
    xds := fun data hdata => ?_
    programmed := Or.inl }
  · rw [hxds]
    split
    · rw [Option.isSome_map]
      exact h
    · exact h
  · rw [hxds] at hdata
    split at hdata
    · obtain ⟨old, -, rfl⟩ := Option.map_eq_some_iff.mp hdata
      exact Or.inr (filesOk_writeAll old hostname rules tlsPorts)
    · exact Or.inl hdata

/-- A status is written for the Gateway only when all of its objects are there. -/
theorem respects_patchStatus {s : Objects} {ns' name' : String} {status : Json}
    (hstatus : (ns, name) = (ns', name') → HasEnvoy ns name s) :
    Respects ns name s (apply s (.patchGatewayStatus (ns', name') status)).1 := by
  refine { Respects.refl s with programmed := fun hp => ?_ }
  by_cases hkey : (ns, name) = (ns', name')
  · have henvoy := hstatus hkey
    exact Or.inr ⟨henvoy.bootstrap, henvoy.xds, henvoy.deployment, henvoy.service⟩
  · obtain ⟨gw, hgw, hcondition⟩ := hp
    have hsame : (apply s (.patchGatewayStatus (ns', name') status)).1.gateways.get (ns, name) =
        s.gateways.get (ns, name) := get_update_ne hkey _
    exact Or.inl ⟨gw, hsame ▸ hgw, hcondition⟩

/-- **Every request that a reconcile makes respects the objects of the Gateway.** -/
theorem respects_of_fits {s : Objects} {r : Request} (h : Fits ns name s r) :
    Respects ns name s (apply s r).1 := by
  cases h with
  | bootstrap ns' => exact respects_createBootstrap s ns'
  | xds ns' hostname => exact respects_createXds s ns' hostname
  | patch ns' hostname rules tlsPorts => exact respects_patchXds s ns' hostname rules tlsPorts
  | deployment ns' name' =>
    exact { Respects.refl s with
      deployment := keptOr_create fun hkey => by rw [(Prod.mk.inj hkey).2]
      programmed := Or.inl }
  | service ns' name' =>
    exact { Respects.refl s with
      service := keptOr_create fun _ => rfl
      programmed := Or.inl }
  | status ns' name' status hstatus => exact respects_patchStatus hstatus
  | classStatus name' status => exact { Respects.refl s with programmed := Or.inl }
  | _ => exact .refl s

/-- Whatever becomes of a request. -/
theorem respects_serve {s : Objects} {r : Request} (h : Fits ns name s r) (fate : Fate) :
    Respects ns name s (apiServer.serve fate s r).1 := by
  cases fate with
  | served => exact respects_of_fits h
  | refused => exact .refl s
  | lost => exact respects_of_fits h

/-! ## 6. Along the programs -/

/-- Any fate. -/
def anyFate (_ : Request) (_ : Fate) : Prop := True

/-- The program respects the objects of the Gateway, and `P` holds for good when it succeeds. -/
abbrev Respecting {α : Type} (ns name : String) (P : α → Objects → Prop) (p : Prog Answer (Except ApiError α))
    (s : Objects) : Prop := Ensures apiServer anyFate (Respects ns name) P p s

/-- One request: what it brings, and what has been kept since the program got to it and since it was served. -/
theorem respecting_ask {r : Request} {P : Value r → Objects → Prop} {s : Objects}
    (hfits : ∀ s', Respects ns name s s' → Fits ns name s' r)
    (hP : ∀ s' v s'', (apply s' r).2 = .ok v → Respects ns name s s'' →
      Respects ns name (apply s' r).1 s'' → P v s'') : Respecting ns name P (ask r) s := by
  intro s' hs' fate _
  refine ⟨respects_serve (hfits s' hs') fate, fun s'' hs'' v hv => ?_⟩
  cases fate with
  | served => exact hP s' v s'' hv (hs'.trans ((respects_of_fits (hfits s' hs')).trans hs'')) hs''
  | refused => cases hv
  | lost => cases hv

/-- An object that is looked for and created. -/
theorem respecting_createMissing {V : Type} {get : Prog Answer (Except ApiError (Option V))} {create : Reconciling}
    {P : Objects → Prop} {s : Objects} (hP : ∀ ⦃s s'⦄, Respects ns name s s' → P s → P s')
    (hget : Respecting ns name (fun found s => found.isSome = true → P s) get s)
    (hcreate : ∀ s', Respects ns name s s' → Respecting ns name (fun _ => P) create s') :
    Respecting ns name (fun _ => P) (createMissing get create) s := by
  refine hget.andThen Respects.refl Respects.trans fun found s' hs' hfound => ?_
  cases found with
  | some v => exact ensures_ok fun s'' hs'' => hP hs'' (hfound rfl)
  | none => exact hcreate s' hs'

/-- After a creation the object is there, whoever created it. -/
theorem isSome_get_create {V : Type} (m : Map ObjectName V) (name : ObjectName) (v : V) :
    ((create m name v).1.get name).isSome = true := by
  unfold create
  cases hname : m.get name with
  | some w => exact Option.isSome_iff_exists.mpr ⟨w, hname⟩
  | none => simp

/-- The ConfigMaps are there, if they are those of the Gateway's namespace. -/
def HasConfigMaps (ns ns' : String) (s : Objects) : Prop :=
  ns = ns' → (s.configMaps.get (ns, "envoy-bootstrap")).isSome = true ∧
    (s.configMaps.get (ns, "envoy-xds-config")).isSome = true

theorem respecting_ensureEnvoyConfigmaps (ns' hostname : String) (s : Objects) :
    Respecting ns name (fun _ => HasConfigMaps ns ns') (ensureEnvoyConfigmaps ns' hostname) s := by
  have hbootstrap : Respecting ns name
      (fun _ s => ns = ns' → (s.configMaps.get (ns, "envoy-bootstrap")).isSome = true)
      (createMissing (ask (.getConfigMap (ns', "envoy-bootstrap")))
        (ask (.createConfigMap (ns', "envoy-bootstrap") bootstrapData))) s := by
    refine respecting_createMissing (fun s s' hs h hns => hs.bootstrap.isSome (h hns)) ?_ fun s' _ => ?_
    · refine respecting_ask (fun _ _ => .getConfigMap _) fun s' v s'' hv _ hs'' hfound hns => ?_
      subst hns
      cases hv
      exact hs''.bootstrap.isSome hfound
    · refine respecting_ask (fun _ _ => .bootstrap ns') fun s' v s'' _ _ hs'' hns => ?_
      subst hns
      exact hs''.bootstrap.isSome (isSome_get_create _ _ _)
  refine hbootstrap.andThen Respects.refl Respects.trans fun _ s _ hfirst => ?_
  refine respecting_createMissing
    (fun s s' hs h hns => ⟨hs.bootstrap.isSome (h hns).1, hs.xdsKept (h hns).2⟩) ?_ fun s' hs' => ?_
  · refine respecting_ask (fun _ _ => .getConfigMap _) fun s' v s'' hv hs hs'' hfound hns => ?_
    refine ⟨hs.bootstrap.isSome (hfirst hns), hs''.xdsKept ?_⟩
    subst hns
    cases hv
    exact hfound
  · refine respecting_ask (fun _ _ => .xds ns' hostname) fun t v s'' _ hs hs'' hns => ?_
    refine ⟨(hs'.trans hs).bootstrap.isSome (hfirst hns), hs''.xdsKept ?_⟩
    subst hns
    exact isSome_get_create _ _ _

theorem respecting_ensureEnvoyDeployment (ns' name' : String) (s : Objects) :
    Respecting ns name (fun _ s => (ns, name) = (ns', name') → (s.deployments.get (ns, name)).isSome = true)
      (ensureEnvoyDeployment ns' name') s := by
  refine respecting_createMissing (fun s s' hs h hkey => hs.deployment.isSome (h hkey)) ?_ fun s' _ => ?_
  · refine respecting_ask (fun _ _ => .getDeployment _) fun s' v s'' hv _ hs'' hfound hkey => ?_
    cases hkey
    cases hv
    exact hs''.deployment.isSome hfound
  · refine respecting_ask (fun _ _ => .deployment ns' name') fun s' v s'' _ _ hs'' hkey => ?_
    cases hkey
    exact hs''.deployment.isSome (isSome_get_create _ _ _)

theorem respecting_ensureEnvoyService (ns' name' : String) (s : Objects) :
    Respecting ns name (fun _ s => (ns, name) = (ns', name') →
        (s.services.get (ns, serviceFullName name gatewayClassName)).isSome = true)
      (ensureEnvoyService ns' (serviceFullName name' gatewayClassName)) s := by
  refine respecting_createMissing (fun s s' hs h hkey => hs.service.isSome (h hkey)) ?_ fun s' _ => ?_
  · refine respecting_ask (fun _ _ => .getService _) fun s' v s'' hv _ hs'' hfound hkey => ?_
    cases hkey
    cases hv
    exact hs''.service.isSome hfound
  · refine respecting_ask (fun _ _ => .service ns' name') fun s' v s'' _ _ hs'' hkey => ?_
    cases hkey
    exact hs''.service.isSome (isSome_get_create _ _ _)

/-- A synchronisation respects every Gateway. -/
theorem respecting_syncConfig (ns' hostname : String) (s : Objects) :
    Respecting ns name (fun _ _ => True) (syncConfig ns' hostname) s := by
  have hlist : Respecting ns name (fun _ _ => True) (ask .listRoutes) s :=
    respecting_ask (fun _ _ => .listRoutes) fun _ _ _ _ _ _ => trivial
  refine hlist.andThen Respects.refl Respects.trans fun routeList s _ _ => ?_
  have hrules : Holds apiServer anyFate (Respects ns name) (fun _ _ => True)
      (ask (.listDestinationRules ns')) s :=
    fun s' _ fate _ => ⟨respects_serve (.listDestinationRules ns') fate, fun _ _ => trivial⟩
  refine hrules.bind Respects.refl Respects.trans fun drList s _ _ => ?_
  exact respecting_ask (fun _ _ => .patch ns' hostname _ _) fun _ _ _ _ _ _ => trivial

theorem respecting_reconcileGateway (gw : Called) (s : Objects) :
    Respecting ns name (fun _ _ => True) (reconcileGateway gw) s := by
  unfold reconcileGateway
  by_cases hclass : className gw.object = gatewayClassName
  · simp only [ne_eq, hclass, not_true_eq_false, if_false]
    refine (respecting_ensureEnvoyConfigmaps _ _ s).andThen Respects.refl Respects.trans fun _ s₁ _ hmaps => ?_
    refine (respecting_ensureEnvoyDeployment _ _ s₁).andThen Respects.refl Respects.trans fun _ s₂ h₂ hdeployment => ?_
    refine (respecting_ensureEnvoyService _ _ s₂).andThen Respects.refl Respects.trans fun _ s₃ h₃ hservice => ?_
    refine (respecting_syncConfig _ _ s₃).andThen Respects.refl Respects.trans fun _ s₄ h₄ _ => ?_
    by_cases haccepted : isGatewayAccepted gw.object = true
    · rw [if_pos haccepted]
      exact ensures_ok fun _ _ => trivial
    · rw [if_neg haccepted]
      -- the four objects have been seen, and none of them goes away
      refine respecting_ask (fun s hs => .status _ _ _ fun hkey => ?_) fun _ _ _ _ _ _ => trivial
      have hmaps' := hmaps (Prod.mk.inj hkey).1
      exact ⟨(h₂.trans (h₃.trans (h₄.trans hs))).bootstrap.isSome hmaps'.1,
        (h₂.trans (h₃.trans (h₄.trans hs))).xdsKept hmaps'.2,
        (h₃.trans (h₄.trans hs)).deployment.isSome (hdeployment hkey),
        (h₄.trans hs).service.isSome (hservice hkey)⟩
  · simp only [ne_eq, hclass, not_false_eq_true, if_true]
    exact ensures_ok fun _ _ => trivial

theorem respecting_syncGateway (s : Objects) : Respecting ns name (fun _ _ => True) syncGateway s := by
  have hget : Respecting ns name (fun _ _ => True) (ask (.getGateway (gatewayNs, gatewayName))) s :=
    respecting_ask (fun _ _ => .getGateway _) fun _ _ _ _ _ _ => trivial
  exact hget.andThen Respects.refl Respects.trans fun gw s _ _ => respecting_syncConfig _ _ s

/-- Every reconcile respects every Gateway. -/
theorem respecting_program (call : Reconcile) (s : Objects) :
    Respecting ns name (fun _ _ => True) (program call) s := by
  cases call with
  | gatewayClass gc =>
    show Respecting ns name (fun _ _ => True) (reconcileGatewayClass gc) s
    unfold reconcileGatewayClass
    split
    · exact ensures_ok fun _ _ => trivial
    · exact respecting_ask (fun _ _ => .classStatus _ _) fun _ _ _ _ _ _ => trivial
  | gateway gw => exact respecting_reconcileGateway gw s
  | httproute route =>
    show Respecting ns name (fun _ _ => True)
      (if referencesOurGateway route then syncGateway else .done (.ok ())) s
    split
    · exact respecting_syncGateway s
    · exact ensures_ok fun _ _ => trivial
  | destinationRule dr => exact respecting_syncGateway s

/-! ## 7. What stands behind `Programmed` -/

/-- What the container of a Deployment finds in a file of a mounted ConfigMap. -/
def podFile (s : Objects) (ns : String) (d : Deployment) (path : String) : Option String :=
  d.volumeMounts.findSome? fun mount =>
    (Str.stripPrefix path (mount.mountPath ++ "/")).bind fun file =>
    (d.volumes.find? fun v => v.name = mount.name).bind fun volume =>
      match volume.source with
      | .configMap cm => (s.configMaps.get (ns, cm)).bind fun data => data.get file
      | .secret _ _ => none

theorem podFile_bootstrap (s : Objects) (ns name file : String) :
    podFile s ns (envoyDeployment name) ("/etc/envoy/bootstrap/" ++ file) =
      (s.configMaps.get (ns, "envoy-bootstrap")).bind fun data => data.get file := by
  have hbootstrap : Str.stripPrefix ("/etc/envoy/bootstrap/" ++ file) ("/etc/envoy/bootstrap" ++ "/") = some file :=
    Str.stripPrefix_append _ _
  have hxds : Str.stripPrefix ("/etc/envoy/bootstrap/" ++ file) ("/etc/envoy/xds" ++ "/") = none :=
    Str.stripPrefix_append_of_clash (by decide) _
  have htls : Str.stripPrefix ("/etc/envoy/bootstrap/" ++ file) ("/etc/envoy/tls" ++ "/") = none :=
    Str.stripPrefix_append_of_clash (by decide) _
  have hvolume : ((envoyDeployment name).volumes.find? fun v => v.name = "bootstrap") =
      some ⟨"bootstrap", .configMap "envoy-bootstrap"⟩ := rfl
  simp only [envoyDeployment] at hvolume
  simp only [podFile, envoyDeployment, List.findSome?_cons, hbootstrap, hxds, htls, hvolume, Option.bind_none,
    Option.bind_some, List.findSome?_nil]
  cases (s.configMaps.get (ns, "envoy-bootstrap")).bind fun data => data.get file <;> rfl

theorem podFile_xds (s : Objects) (ns name file : String) :
    podFile s ns (envoyDeployment name) ("/etc/envoy/xds/" ++ file) =
      (s.configMaps.get (ns, "envoy-xds-config")).bind fun data => data.get file := by
  have hbootstrap : Str.stripPrefix ("/etc/envoy/xds/" ++ file) ("/etc/envoy/bootstrap" ++ "/") = none :=
    Str.stripPrefix_append_of_clash (by decide) _
  have hxds : Str.stripPrefix ("/etc/envoy/xds/" ++ file) ("/etc/envoy/xds" ++ "/") = some file :=
    Str.stripPrefix_append _ _
  have htls : Str.stripPrefix ("/etc/envoy/xds/" ++ file) ("/etc/envoy/tls" ++ "/") = none :=
    Str.stripPrefix_append_of_clash (by decide) _
  have hvolume : ((envoyDeployment name).volumes.find? fun v => v.name = "xds") =
      some ⟨"xds", .configMap "envoy-xds-config"⟩ := rfl
  simp only [envoyDeployment] at hvolume
  simp only [podFile, envoyDeployment, List.findSome?_cons, hbootstrap, hxds, htls, hvolume, Option.bind_none,
    Option.bind_some, List.findSome?_nil]
  cases (s.configMaps.get (ns, "envoy-xds-config")).bind fun data => data.get file <;> rfl

/-- The Envoy of a Gateway as the controllers make it: its Deployment and its Service; the file that its command names;
and the files that this one and the listener name, all three made for one hostname from one list of rules. -/
structure EnvoyConfigured (ns name : String) (s : Objects) : Prop where
  deployment : s.deployments.get (ns, name) = some (envoyDeployment name)
  service : s.services.get (ns, serviceFullName name gatewayClassName) = some envoyService
  bootstrap : podFile s ns (envoyDeployment name) ("/etc/envoy/bootstrap/" ++ "bootstrap.yaml") =
    some generateBootstrapYaml
  xds : ∃ hostname rules tlsPorts, ∀ file ∈ xdsFiles hostname rules tlsPorts,
    podFile s ns (envoyDeployment name) ("/etc/envoy/xds/" ++ file.1) = some file.2

/-- None of the objects of the Gateway's Envoy is there, and its status does not say that they are. -/
structure Fresh (ns name : String) (s : Objects) : Prop where
  bootstrap : s.configMaps.get (ns, "envoy-bootstrap") = none
  xds : s.configMaps.get (ns, "envoy-xds-config") = none
  deployment : s.deployments.get (ns, name) = none
  service : s.services.get (ns, serviceFullName name gatewayClassName) = none
  programmed : ¬ Programmed ns name s

/-- What has come up since then is right. -/
theorem KeptOr.eq_of_none {V : Type} {v : V} {new : Option V} (h : KeptOr (· = v) none new)
    (hnew : new.isSome = true) : new = some v := by
  obtain ⟨w, hw⟩ := Option.isSome_iff_exists.mp hnew
  rcases h.right w hw with hnone | rfl
  · cases hnone
  · exact hw

theorem envoyConfigured_of_respects {s₀ s : Objects} (hfresh : Fresh ns name s₀) (h : Respects ns name s₀ s)
    (hprogrammed : Programmed ns name s) : EnvoyConfigured ns name s := by
  have henvoy : HasEnvoy ns name s := (h.programmed hprogrammed).resolve_left hfresh.programmed
  have hbootstrap := KeptOr.eq_of_none (hfresh.bootstrap ▸ h.bootstrap) henvoy.bootstrap
  obtain ⟨data, hdata⟩ := Option.isSome_iff_exists.mp henvoy.xds
  obtain ⟨hostname, rules, tlsPorts, hfiles⟩ : FilesOk data := by
    rcases h.xds data hdata with hold | hok
    · rw [hfresh.xds] at hold
      cases hold
    · exact hok
  refine ⟨KeptOr.eq_of_none (hfresh.deployment ▸ h.deployment) henvoy.deployment,
    KeptOr.eq_of_none (hfresh.service ▸ h.service) henvoy.service, ?_, hostname, rules, tlsPorts, ?_⟩
  · rw [podFile_bootstrap, hbootstrap]
    rfl
  · intro file hmem
    rw [podFile_xds, hdata, Option.bind_some, hfiles file hmem]

/-- **A Gateway that is `Programmed` has a configured Envoy**, in every run of the controllers: whatever objects they are
called for, in whatever versions, however their requests interleave and fail, and whatever the users do besides, as
long as they leave the objects of this Envoy and the status alone. -/
theorem programmed_has_envoy (ns name : String) {s₀ : Objects} (hfresh : Fresh ns name s₀)
    {run : List (Move Objects Fate Reconcile)}
    (hedits : ∀ e ∈ controllers.trace ⟨s₀, []⟩ run, ∀ f, e.input = .edit f →
      Respects ns name e.before.store (f e.before.store))
    (hprogrammed : Programmed ns name (controllers.exec ⟨s₀, []⟩ run).store) :
    EnvoyConfigured ns name (controllers.exec ⟨s₀, []⟩ run).store := by
  have hallowed : ∀ e ∈ controllers.trace ⟨s₀, []⟩ run,
      Allowed anyFate (Respects ns name) (fun _ => True) e.before e.input :=
    fun e he => ⟨fun _ _ => trivial, fun _ _ _ _ _ _ _ => trivial, hedits e he⟩
  obtain ⟨hrespects, -⟩ := Pool.holds Respects.refl Respects.trans
    (fun call _ s _ => respecting_program call s) hallowed
  exact envoyConfigured_of_respects hfresh hrespects hprogrammed

/-- A Gateway of the class, and a cluster with nothing else. -/
def sampleGateway : DynamicObject where
  name := some "data-science-gateway"
  ns := some "openshift-ingress"
  data := .obj [("spec", .obj [("gatewayClassName", .str "data-science-gateway-class")])]

def newCluster : Objects where
  routes := []
  destinationRules := []
  gateways := Map.empty.insert ("openshift-ingress", "data-science-gateway") sampleGateway
  gatewayClasses := Map.empty
  configMaps := Map.empty
  deployments := Map.empty
  services := Map.empty

/-- The Gateway is reconciled, and every request is served. -/
def sampleReconcile : List (Move Objects Fate Reconcile) :=
  .start (.gateway ⟨sampleGateway, some 1, "2026-01-01T00:00:00Z"⟩) :: List.replicate 12 (.serve 0 .served)

theorem programmed_has_envoy_sample :
    EnvoyConfigured "openshift-ingress" "data-science-gateway"
      (controllers.exec ⟨newCluster, []⟩ sampleReconcile).store := by
  have hfresh : Fresh "openshift-ingress" "data-science-gateway" newCluster := by
    refine ⟨rfl, rfl, rfl, rfl, ?_⟩
    rintro ⟨gw, hgw, hcondition⟩
    have hgateway : newCluster.gateways.get ("openshift-ingress", "data-science-gateway") = some sampleGateway :=
      Map.get_insert_self _ _ _
    rw [hgateway, Option.some.injEq] at hgw
    rw [← hgw] at hcondition
    exact absurd hcondition (by decide)
  refine programmed_has_envoy _ _ hfresh ?_ ?_
  · intro e he f hf
    have hinput : e.input ∈ sampleReconcile := by
      rw [← controllers.map_input_trace ⟨newCluster, []⟩ sampleReconcile]
      exact List.mem_map_of_mem he
    rw [hf] at hinput
    rcases List.mem_cons.mp hinput with h | h
    · cases h
    · cases List.eq_of_mem_replicate h
  · have hstatus : ((controllers.exec ⟨newCluster, []⟩ sampleReconcile).store.gateways.get
        ("openshift-ingress", "data-science-gateway")).any (hasCondition "Programmed") = true := by
      decide +kernel
    obtain ⟨gw, hgw, hcondition⟩ := (Option.any_eq_true _ _).mp hstatus
    exact ⟨gw, hgw, hcondition⟩

end Picoshift.Gateway
