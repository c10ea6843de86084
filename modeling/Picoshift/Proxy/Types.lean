/-
# The proxy's backends and the Kubernetes objects it reads

`RouteBackend` is what the route table holds for a host.  The Kubernetes objects carry the fields
that `proxy.rs` reads and no others; `Option` is where the API type has one.

A port number is an `i32` in the API types and a `u16` in a socket address, so it is an `Int` here
and every `as` cast of the source is written out (`asU16`, `asI32`).
-/
import Mathlib.Data.Int.Basic
import Picoshift.Lib.Json

namespace Picoshift.Proxy

/-- `n as u16`. -/
def asU16 (n : Int) : Nat := (n % 65536).toNat

/-- `n as i32`, for a `u64`. -/
def asI32 (n : Nat) : Int := (n : Int).bmod 4294967296

theorem asU16_of_range {n : Int} (h : 0 < n ∧ n < 65536) : (asU16 n : Int) = n := by
  unfold asU16
  omega

theorem asU16_eq_iff (n : Int) : (asU16 n : Int) = n ↔ 0 ≤ n ∧ n < 65536 := by
  unfold asU16
  omega

/-- `TargetPort`. -/
inductive TargetPort where
  | number (n : Int)
  | name (s : String)
  deriving DecidableEq, Repr

/-- `RouteBackend`. -/
structure RouteBackend where
  serviceName : String
  serviceNamespace : String
  targetPort : TargetPort
  tls : Bool
  deriving DecidableEq, Repr

/-- The number or the name of a port. -/
inductive IntOrString where
  | int (n : Int)
  | string (s : String)
  deriving DecidableEq, Repr

/-- One port of a Service. -/
structure ServicePort where
  name : Option String
  port : Int
  targetPort : Option IntOrString
  deriving DecidableEq, Repr

structure ServiceSpec where
  clusterIp : Option String
  ports : Option (List ServicePort)
  deriving DecidableEq, Repr

structure Service where
  name : Option String
  ns : Option String
  spec : Option ServiceSpec
  deriving DecidableEq, Repr

structure EndpointPort where
  name : Option String
  port : Int
  deriving DecidableEq, Repr

/-- One subset of an Endpoints object; an address is its `ip`. -/
structure EndpointSubset where
  addresses : Option (List String)
  ports : Option (List EndpointPort)
  deriving DecidableEq, Repr

structure Endpoints where
  subsets : Option (List EndpointSubset)
  deriving DecidableEq, Repr

/-- An object of a custom resource: its metadata and the rest as JSON. -/
structure DynamicObject where
  name : Option String
  ns : Option String
  data : Json

end Picoshift.Proxy
