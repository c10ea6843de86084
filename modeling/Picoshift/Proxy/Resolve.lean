/-
# From a backend to an address

`resolve_endpoint` answers in one of two ways.  When the Service has a cluster IP it dials that IP,
and otherwise it dials a pod out of the Endpoints.  A Route's target port is a port of the PODS.
The Endpoints list pod ports, so the second way looks it up where it belongs.  A cluster IP has
SERVICE ports: the first way dials a number as it stands, and for a name it dials the Service port
of that name, or 80.

§2 says what Kubernetes makes of a Service: which pod port a Service port forwards to, and which
Endpoints the control plane derives from it.  §3 compares the two ways.  They agree on a number
exactly when the Service has a port with that number that forwards to itself, and on a name exactly
when the Service has a port of that name that forwards at all (`ports_agree_iff`).
-/
import Mathlib.Data.List.Perm.Basic
import Picoshift.Lib.IpAddr
import Picoshift.Proxy.Types

namespace Picoshift.Proxy

/-! ## 1. The function -/

/-- A socket address. -/
structure SocketAddr where
  ip : IpAddr
  port : Nat
  deriving DecidableEq, Repr

/-- The port the ClusterIP path dials. -/
def clusterPort (spec : ServiceSpec) : TargetPort → Nat
  | .number n => asU16 n
  | .name s =>
    match (spec.ports.getD []).find? fun p => p.name == some s with
    | some p => asU16 p.port
    | none => 80

/-- The ClusterIP path: the Service was found, has a cluster IP, and that is an address. -/
def clusterAddr (svc : Option Service) (target : TargetPort) : Option SocketAddr :=
  match svc.bind Service.spec with
  | none => none
  | some spec =>
  match spec.clusterIp with
  | none => none
  | some clusterIp =>
  if clusterIp = "None" ∨ clusterIp = "" then none
  else (IpAddr.parse clusterIp).map fun ip => ⟨ip, clusterPort spec target⟩

/-- The test of the Endpoints path on a port. -/
def TargetPort.matches (target : TargetPort) (p : EndpointPort) : Bool :=
  match target with
  | .number n => p.port == n
  | .name s => p.name == some s

/-- The loop of the Endpoints path over the subsets: a subset without a port list or with an
address that is none ends the search, one without the port or without addresses is skipped. -/
def subsetsAddr (target : TargetPort) : List EndpointSubset → Option SocketAddr
  | [] => none
  | subset :: rest =>
    match subset.ports with
    | none => none
    | some ports =>
    match ports.find? target.matches, subset.addresses.bind List.head? with
    | some p, some ip => (IpAddr.parse ip).map fun ip => ⟨ip, asU16 p.port⟩
    | _, _ => subsetsAddr target rest

/-- The Endpoints path. -/
def endpointsAddr (ep : Option Endpoints) (target : TargetPort) : Option SocketAddr :=
  match ep.bind Endpoints.subsets with
  | none => none
  | some subsets => subsetsAddr target subsets

/-- `resolve_endpoint`, on the API server's answers for the backend's Service and Endpoints. -/
def resolveEndpoint (svc : Option Service) (ep : Option Endpoints) (backend : RouteBackend) :
    Option SocketAddr :=
  (clusterAddr svc backend.targetPort).or (endpointsAddr ep backend.targetPort)

/-- What the Endpoints path dials: an address that was read, and the number it looks for. -/
theorem subsetsAddr_eq_some {target : TargetPort} {subsets : List EndpointSubset} {addr : SocketAddr}
    (h : subsetsAddr target subsets = some addr) :
    (∃ text, IpAddr.parse text = some addr.ip) ∧ ∀ m, target = .number m → addr.port = asU16 m := by
  induction subsets with
  | nil => cases h
  | cons subset subsets ih =>
    rw [subsetsAddr] at h
    split at h
    · cases h
    · split at h
      · rename_i p ip hfind _
        obtain ⟨parsed, hparsed, rfl⟩ := Option.map_eq_some_iff.mp h
        refine ⟨⟨ip, hparsed⟩, ?_⟩
        rintro m rfl
        have hmatch := List.find?_some hfind
        have hp : p.port = m := eq_of_beq hmatch
        rw [← hp]
      · exact ih h

/-- What is dialled: an address that was read, and for a number its last 16 bits. -/
theorem resolveEndpoint_eq_some {svc : Option Service} {ep : Option Endpoints} {backend : RouteBackend}
    {addr : SocketAddr} (h : resolveEndpoint svc ep backend = some addr) :
    (∃ text, IpAddr.parse text = some addr.ip) ∧
      ∀ m, backend.targetPort = .number m → addr.port = asU16 m := by
  rw [resolveEndpoint] at h
  rcases Option.or_eq_some_iff.mp h with h | ⟨-, h⟩
  · rw [clusterAddr] at h
    split at h
    · cases h
    split at h
    · cases h
    split at h
    · cases h
    · rename_i clusterIp _ _
      obtain ⟨ip, hip, rfl⟩ := Option.map_eq_some_iff.mp h
      refine ⟨⟨clusterIp, hip⟩, fun m hm => ?_⟩
      rw [hm]
      rfl
  · rw [endpointsAddr] at h
    split at h
    · cases h
    · exact subsetsAddr_eq_some h

/-! ## 2. What Kubernetes makes of a Service -/

/-- A valid port number. -/
def PortNumber (n : Int) : Prop := 0 < n ∧ n < 65536

instance (n : Int) : Decidable (PortNumber n) := inferInstanceAs (Decidable (0 < n ∧ n < 65536))

/-- The pods behind a Service, replicas of one template: the container port each named port is,
and the addresses of those that are ready. -/
structure Pods where
  containerPort : String → Option Int
  ready : List String
  containerPort_range : ∀ s n, containerPort s = some n → PortNumber n
  ready_ne_nil : ready ≠ []
  ready_parse : ∀ ip ∈ ready, (IpAddr.parse ip).isSome = true

/-- The pod port a Service port forwards to: its `targetPort`, which the pods must have when it is
a name, and the port itself when it has none. -/
def ServicePort.podPort (pods : Pods) (p : ServicePort) : Option Int :=
  match p.targetPort with
  | none => some p.port
  | some (.int n) => some n
  | some (.string s) => pods.containerPort s

/-- The port list of a Service as the API server admits it: valid numbers, and no number and no
name twice. -/
structure ServicePorts where
  list : List ServicePort
  port_range : ∀ p ∈ list, PortNumber p.port
  target_range : ∀ p ∈ list, ∀ n, p.targetPort = some (.int n) → PortNumber n
  port_unique : list.Pairwise fun p q => p.port ≠ q.port
  name_unique : list.Pairwise fun p q => p.name ≠ q.name

/-- A connection to port `port` of the cluster IP reaches this pod port. -/
def forwardedPort (pods : Pods) (ports : ServicePorts) (port : Nat) : Option Int :=
  (ports.list.find? fun p => p.port == (port : Int)).bind (ServicePort.podPort pods)

/-- The ports of the Endpoints: one for every Service port that forwards to some pod port. -/
def derivedPorts (pods : Pods) (ports : ServicePorts) : List EndpointPort :=
  ports.list.filterMap fun p => (p.podPort pods).map fun n => ⟨p.name, n⟩

/-- The Endpoints the control plane derives: one subset with the ready addresses and the derived
ports, each in an order of its own; none when no port forwards. -/
def DerivedEndpoints (pods : Pods) (ports : ServicePorts) (ep : Endpoints) : Prop :=
  ∃ addresses derived, addresses.Perm pods.ready ∧ derived.Perm (derivedPorts pods ports) ∧
    ep.subsets = if derived = [] then none else some [⟨some addresses, some derived⟩]

/-- A key that no two elements share finds its element. -/
theorem find?_eq_some_of_pairwise {α β : Type} [BEq β] [LawfulBEq β] {f : α → β} {l : List α}
    (h : l.Pairwise fun a b => f a ≠ f b) {a : α} (ha : a ∈ l) :
    l.find? (fun b => f b == f a) = some a := by
  induction l with
  | nil => cases ha
  | cons b l ih =>
    rw [List.pairwise_cons] at h
    rcases List.mem_cons.mp ha with rfl | hl
    · simp
    · rw [List.find?_cons_of_neg (by simpa using h.1 a hl)]
      exact ih h.2 hl

section Derived

variable {pods : Pods} {ports : ServicePorts}

theorem podPort_range {p : ServicePort} (hp : p ∈ ports.list) {n : Int}
    (h : p.podPort pods = some n) : PortNumber n := by
  unfold ServicePort.podPort at h
  split at h
  · cases h
    exact ports.port_range p hp
  · rename_i m htarget
    cases h
    exact ports.target_range p hp _ htarget
  · exact pods.containerPort_range _ _ h

/-- A Service port forwards where its own target says. -/
theorem forwardedPort_of_mem {p : ServicePort} (hp : p ∈ ports.list) :
    forwardedPort pods ports (asU16 p.port) = p.podPort pods := by
  rw [forwardedPort, asU16_of_range (ports.port_range p hp),
    find?_eq_some_of_pairwise ports.port_unique hp]
  rfl

theorem mem_derivedPorts {e : EndpointPort} : e ∈ derivedPorts pods ports ↔
    ∃ p ∈ ports.list, p.name = e.name ∧ p.podPort pods = some e.port := by
  simp only [derivedPorts, List.mem_filterMap, Option.map_eq_some_iff]
  constructor
  · rintro ⟨p, hp, n, hn, rfl⟩
    exact ⟨p, hp, rfl, hn⟩
  · rintro ⟨p, hp, hname, hport⟩
    exact ⟨p, hp, e.port, hport, by rw [hname]⟩

/-- The Endpoints path on derived Endpoints: it answers exactly when some Service port forwards to
a pod port that the target names, and then it dials such a pod port. -/
theorem endpointsAddr_derived {ep : Endpoints} (hep : DerivedEndpoints pods ports ep)
    (target : TargetPort) :
    (∀ addr, endpointsAddr (some ep) target = some addr →
      ∃ p ∈ ports.list, ∃ n, p.podPort pods = some n ∧ target.matches ⟨p.name, n⟩ = true ∧
        (addr.port : Int) = n) ∧
    (∀ p ∈ ports.list, ∀ n, p.podPort pods = some n → target.matches ⟨p.name, n⟩ = true →
      ∃ addr, endpointsAddr (some ep) target = some addr) := by
  obtain ⟨addresses, derived, haddresses, hderived, hsubsets⟩ := hep
  have hpath : endpointsAddr (some ep) target =
      if derived = [] then none else subsetsAddr target [⟨some addresses, some derived⟩] := by
    rw [endpointsAddr, Option.bind_some, hsubsets]
    split <;> simp_all
  obtain ⟨ip, hip⟩ : ∃ ip, addresses.head? = some ip := by
    cases addresses with
    | nil => exact absurd haddresses.symm.eq_nil pods.ready_ne_nil
    | cons ip _ => exact ⟨ip, rfl⟩
  obtain ⟨parsed, hparsed⟩ := Option.isSome_iff_exists.mp
    (pods.ready_parse ip (haddresses.mem_iff.mp (List.mem_of_mem_head? hip)))
  have hloop : endpointsAddr (some ep) target =
      (derived.find? target.matches).map fun p => ⟨parsed, asU16 p.port⟩ := by
    rw [hpath]
    cases hfind : derived.find? target.matches with
    | none => simp [subsetsAddr, hfind]
    | some p =>
      have hne : derived ≠ [] := List.ne_nil_of_mem (List.mem_of_find?_eq_some hfind)
      simp [subsetsAddr, hfind, hip, hparsed, hne]
  constructor
  · intro addr haddr
    rw [hloop, Option.map_eq_some_iff] at haddr
    obtain ⟨e, hfind, rfl⟩ := haddr
    obtain ⟨p, hp, hname, hport⟩ := mem_derivedPorts.mp
      (hderived.mem_iff.mp (List.mem_of_find?_eq_some hfind))
    refine ⟨p, hp, e.port, hport, ?_, asU16_of_range (podPort_range hp hport)⟩
    rw [hname]
    exact List.find?_some hfind
  · intro p hp n hn hmatch
    have hmem : (⟨p.name, n⟩ : EndpointPort) ∈ derived :=
      hderived.mem_iff.mpr (mem_derivedPorts.mpr ⟨p, hp, rfl, hn⟩)
    obtain ⟨e, hfind⟩ := Option.isSome_iff_exists.mp
      (List.find?_isSome.mpr ⟨_, hmem, hmatch⟩)
    exact ⟨⟨parsed, asU16 e.port⟩, by rw [hloop, hfind]; rfl⟩

end Derived

/-! ## 3. The two paths -/

/-- Whenever the ClusterIP path answers, the Endpoints path would answer too, and the Service port
that the first dials forwards to the pod port that the second dials. -/
def PathsAgree (pods : Pods) (ports : ServicePorts) (svc : Service) (ep : Endpoints)
    (backend : RouteBackend) : Prop :=
  ∀ addr, clusterAddr (some svc) backend.targetPort = some addr →
    ∃ podAddr, endpointsAddr (some ep) backend.targetPort = some podAddr ∧
      forwardedPort pods ports addr.port = some (podAddr.port : Int)

/-- The Service has a cluster IP. -/
def HasClusterIp (spec : ServiceSpec) : Prop :=
  ∃ text ip, spec.clusterIp = some text ∧ IpAddr.parse text = some ip

/-- The target means the same on the Service and on the pods: a number is a Service port that
forwards to itself, a name is that of a Service port that forwards. -/
def SameOnBoth (pods : Pods) (ports : ServicePorts) : TargetPort → Prop
  | .number n => ∃ p ∈ ports.list, p.port = n ∧ p.podPort pods = some n
  | .name s => ∃ p ∈ ports.list, p.name = some s ∧ (p.podPort pods).isSome = true

/-- The ClusterIP path answers exactly for a Service with a cluster IP, and dials `clusterPort`
there. -/
theorem clusterAddr_eq_some_iff {svc : Service} {spec : ServiceSpec} (hspec : svc.spec = some spec)
    {target : TargetPort} {addr : SocketAddr} :
    clusterAddr (some svc) target = some addr ↔
      ∃ text, spec.clusterIp = some text ∧ IpAddr.parse text = some addr.ip ∧
        addr.port = clusterPort spec target := by
  have hnone : IpAddr.parse "None" = none ∧ IpAddr.parse "" = none := by decide +kernel
  rw [clusterAddr, Option.bind_some, hspec]
  cases hip : spec.clusterIp with
  | none => simp [hip]
  | some text =>
    simp only [hip]
    split
    · rename_i hblank
      rcases hblank with rfl | rfl
      · simp [hnone.1]
      · simp [hnone.2]
    · rw [Option.map_eq_some_iff]
      constructor
      · rintro ⟨ip, hparse, rfl⟩
        exact ⟨text, rfl, hparse, rfl⟩
      · rintro ⟨_, htext, hparse, hport⟩
        cases htext
        exact ⟨addr.ip, hparse, by rw [← hport]⟩

section Paths

variable {pods : Pods} {ports : ServicePorts} {spec : ServiceSpec} {ep : Endpoints}

/-- For a number the two ways mean two different things, and coincide on a Service port that
forwards to itself. -/
theorem agree_number_iff (hep : DerivedEndpoints pods ports ep) (n : Int) :
    (∃ podAddr, endpointsAddr (some ep) (.number n) = some podAddr ∧
        forwardedPort pods ports (clusterPort spec (.number n)) = some (podAddr.port : Int)) ↔
      SameOnBoth pods ports (.number n) := by
  obtain ⟨hsound, hcomplete⟩ := endpointsAddr_derived hep (.number n)
  -- the Endpoints path only ever dials the number itself
  have hdials : ∀ podAddr, endpointsAddr (some ep) (.number n) = some podAddr →
      PortNumber n ∧ (podAddr.port : Int) = n := by
    intro podAddr haddr
    obtain ⟨p, hp, m, hm, hmatch, hport⟩ := hsound podAddr haddr
    have hmn : m = n := by simpa [TargetPort.matches] using hmatch
    rw [hmn] at hm hport
    exact ⟨podPort_range hp hm, hport⟩
  constructor
  · rintro ⟨podAddr, haddr, hforward⟩
    obtain ⟨hrange, hport⟩ := hdials podAddr haddr
    rw [hport, clusterPort, forwardedPort, asU16_of_range hrange,
      Option.bind_eq_some_iff] at hforward
    obtain ⟨p, hfind, hpod⟩ := hforward
    exact ⟨p, List.mem_of_find?_eq_some hfind, by simpa using List.find?_some hfind, hpod⟩
  · rintro ⟨p, hp, rfl, hpod⟩
    obtain ⟨podAddr, haddr⟩ := hcomplete p hp _ hpod (by simp [TargetPort.matches])
    refine ⟨podAddr, haddr, ?_⟩
    rw [clusterPort, forwardedPort_of_mem hp, hpod, (hdials podAddr haddr).2]

/-- A name is looked up among the names of the Service ports by either way, so only a Service port
that is missing or does not forward tells them apart. -/
theorem agree_name_iff (hports : spec.ports.getD [] = ports.list)
    (hep : DerivedEndpoints pods ports ep) (s : String) :
    (∃ podAddr, endpointsAddr (some ep) (.name s) = some podAddr ∧
        forwardedPort pods ports (clusterPort spec (.name s)) = some (podAddr.port : Int)) ↔
      SameOnBoth pods ports (.name s) := by
  obtain ⟨hsound, hcomplete⟩ := endpointsAddr_derived hep (.name s)
  constructor
  · rintro ⟨podAddr, haddr, -⟩
    obtain ⟨p, hp, n, hpod, hmatch, -⟩ := hsound podAddr haddr
    exact ⟨p, hp, by simpa [TargetPort.matches] using hmatch, by rw [hpod]; rfl⟩
  · rintro ⟨p, hp, hname, hsome⟩
    obtain ⟨n, hpod⟩ := Option.isSome_iff_exists.mp hsome
    obtain ⟨podAddr, haddr⟩ := hcomplete p hp n hpod (by simp [TargetPort.matches, hname])
    -- both ways have found `p`, since no other port has its name
    have hfind : ports.list.find? (fun q => q.name == some s) = some p :=
      hname ▸ find?_eq_some_of_pairwise ports.name_unique hp
    obtain ⟨q, hq, m, hqpod, hmatch, hport⟩ := hsound podAddr haddr
    have hqname : q.name = some s := by simpa [TargetPort.matches] using hmatch
    have hqp : some q = some p :=
      (hqname ▸ find?_eq_some_of_pairwise ports.name_unique hq).symm.trans hfind
    cases hqp
    refine ⟨podAddr, haddr, ?_⟩
    simp only [clusterPort, hports, hfind]
    rw [forwardedPort_of_mem hp, hqpod, hport]

/-- **When the two ways agree.**  A Service without a cluster IP is never dialled there; for any
other the target has to mean the same on the Service and on its pods. -/
theorem ports_agree_iff {svc : Service} (hspec : svc.spec = some spec)
    (hports : spec.ports.getD [] = ports.list) (hep : DerivedEndpoints pods ports ep)
    (backend : RouteBackend) :
    PathsAgree pods ports svc ep backend ↔
      (HasClusterIp spec → SameOnBoth pods ports backend.targetPort) := by
  have hpaths : PathsAgree pods ports svc ep backend ↔ (HasClusterIp spec →
      ∃ podAddr, endpointsAddr (some ep) backend.targetPort = some podAddr ∧
        forwardedPort pods ports (clusterPort spec backend.targetPort) =
          some (podAddr.port : Int)) := by
    constructor
    · rintro hagree ⟨text, ip, htext, hparse⟩
      exact hagree ⟨ip, clusterPort spec backend.targetPort⟩
        ((clusterAddr_eq_some_iff hspec).mpr ⟨text, htext, hparse, rfl⟩)
    · intro h addr haddr
      obtain ⟨text, htext, hparse, hport⟩ := (clusterAddr_eq_some_iff hspec).mp haddr
      rw [hport]
      exact h ⟨text, addr.ip, htext, hparse⟩
  rw [hpaths]
  refine imp_congr_right fun _ => ?_
  cases backend.targetPort with
  | number n => exact agree_number_iff hep n
  | name s => exact agree_name_iff hports hep s

/-- Where the target means the same on both, `resolve_endpoint` answers, and whichever way it took,
the connection reaches the pod port that the Endpoints list for the target. -/
theorem resolveEndpoint_reaches {svc : Service} (hspec : svc.spec = some spec)
    (hports : spec.ports.getD [] = ports.list) (hep : DerivedEndpoints pods ports ep)
    {backend : RouteBackend} (hsame : SameOnBoth pods ports backend.targetPort) :
    ∃ addr podAddr, resolveEndpoint (some svc) (some ep) backend = some addr ∧
      endpointsAddr (some ep) backend.targetPort = some podAddr ∧
      (addr = podAddr ∨ forwardedPort pods ports addr.port = some (podAddr.port : Int)) := by
  obtain ⟨podAddr, hpod, hforward⟩ : ∃ podAddr,
      endpointsAddr (some ep) backend.targetPort = some podAddr ∧
        forwardedPort pods ports (clusterPort spec backend.targetPort) =
          some (podAddr.port : Int) := by
    cases htarget : backend.targetPort with
    | number n => exact (agree_number_iff hep n).mpr (htarget ▸ hsame)
    | name s => exact (agree_name_iff hports hep s).mpr (htarget ▸ hsame)
  cases hcluster : clusterAddr (some svc) backend.targetPort with
  | none =>
    refine ⟨podAddr, podAddr, ?_, hpod, Or.inl rfl⟩
    rw [resolveEndpoint, hcluster, Option.none_or, hpod]
  | some addr =>
    obtain ⟨-, -, -, hport⟩ := (clusterAddr_eq_some_iff hspec).mp hcluster
    refine ⟨addr, podAddr, ?_, hpod, Or.inr (hport ▸ hforward)⟩
    rw [resolveEndpoint, hcluster, Option.some_or]

end Paths

/-! ### A Service that serves 80 from the pods' 8080 -/

/-- One replica, whose port 8080 is called `web`. -/
def samplePods : Pods where
  containerPort s := if s = "web" then some 8080 else none
  ready := ["10.244.0.7"]
  containerPort_range := by
    intro s n h
    split at h
    · cases h
      decide
    · cases h
  ready_ne_nil := by decide
  ready_parse := by decide +kernel

def samplePorts : ServicePorts where
  list := [⟨some "http", 80, some (.int 8080)⟩, ⟨some "web", 8443, some (.string "web")⟩]
  port_range := by decide
  target_range := by
    intro p hp n h
    simp only [List.mem_cons, List.not_mem_nil, or_false] at hp
    rcases hp with rfl | rfl
    · cases h
      decide
    · cases h
  port_unique := by decide
  name_unique := by decide

def sampleService : Service :=
  ⟨some "app", some "shop", some ⟨some "10.96.0.20", some samplePorts.list⟩⟩

def sampleEndpoints : Endpoints :=
  ⟨some [⟨some ["10.244.0.7"], some [⟨some "web", 8080⟩, ⟨some "http", 8080⟩]⟩]⟩

theorem derived_sampleEndpoints : DerivedEndpoints samplePods samplePorts sampleEndpoints := by
  refine ⟨["10.244.0.7"], [⟨some "web", 8080⟩, ⟨some "http", 8080⟩], List.Perm.refl _, ?_, rfl⟩
  decide +kernel

/-- By name the two ways agree. -/
theorem ports_agree_iff_web :
    PathsAgree samplePods samplePorts sampleService sampleEndpoints
      ⟨"app", "shop", .name "web", false⟩ :=
  (ports_agree_iff rfl rfl derived_sampleEndpoints _).mpr fun _ =>
    ⟨⟨some "web", 8443, some (.string "web")⟩, by decide, rfl, by decide⟩

/-- By number they do not: the Endpoints path dials the pod at 8080, the ClusterIP path dials the
Service at 8080, where it has no port. -/
theorem ports_disagree_8080 :
    DerivedEndpoints samplePods samplePorts sampleEndpoints ∧
      ¬ PathsAgree samplePods samplePorts sampleService sampleEndpoints
        ⟨"app", "shop", .number 8080, false⟩ := by
  refine ⟨derived_sampleEndpoints, fun hagree => ?_⟩
  have hcluster : clusterAddr (some sampleService) (.number 8080) =
      some ⟨.v4 [10, 96, 0, 20], 8080⟩ := by
    decide +kernel
  obtain ⟨podAddr, -, hforward⟩ := hagree _ hcluster
  have hnone : forwardedPort samplePods samplePorts 8080 = none := by decide
  rw [hnone] at hforward
  cases hforward

end Picoshift.Proxy
