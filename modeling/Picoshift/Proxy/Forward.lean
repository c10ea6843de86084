/-
# What the proxy tells an upstream about the client's connection

An upstream learns from `X-Forwarded-Proto`, `-Scheme` and `-Port` how the client reached the proxy.
Only the proxy knows, so what a client writes into these headers should not get through.  It does, on
both paths:

* the plain path copies every header but `host` and then APPENDS its own, so a client's value stands
  in front of the proxy's;
* the upgrade path copies the headers into the text of a request head and appends one line when the
  client came over TLS.  Over plain HTTP it adds nothing, so there the client has the only word.

`forwarded_isolated_iff` says for two requests that differ in these headers only when the upstream
cannot tell them apart.  The head of the upgrade path is text; what its receiver reads is settled by
`HttpHead.readFields_head`.
-/
import Picoshift.Lib.HttpHead
import Picoshift.Proxy.Resolve
import Picoshift.Proxy.RouteTable
import Picoshift.Proxy.Tunnel

namespace Picoshift.Proxy

open HttpHead (Field valuesOf readFields)

/-! ## 1. Requests -/

/-- A header as `hyper` hands it over: a name in lower case, and a value without control characters
and without blanks around it. -/
structure HeaderOk (header : Field) : Prop where
  name : header.1.toList.all (fun c => isTokenChar c && !c.isUpper) = true
  value : header.2.all (fun b => (32 ≤ b.toNat && b.toNat ≠ 127) || b.toNat = 9) = true
  head : ∀ b, header.2.head? = some b → HttpHead.isOws b = false
  last : ∀ b, header.2.getLast? = some b → HttpHead.isOws b = false

/-- The test for that. -/
def headerOk (header : Field) : Bool :=
  header.1.toList.all (fun c => isTokenChar c && !c.isUpper) &&
    header.2.all (fun b => (32 ≤ b.toNat && b.toNat ≠ 127) || b.toNat = 9) &&
    header.2.head?.all (fun b => !HttpHead.isOws b) && header.2.getLast?.all (fun b => !HttpHead.isOws b)

theorem headerOk_iff (header : Field) : headerOk header = true ↔ HeaderOk header := by
  simp only [headerOk, Bool.and_eq_true, Option.all_eq_true, Bool.not_eq_true', and_assoc]
  constructor
  · rintro ⟨name, value, head, last⟩
    exact ⟨name, value, head, last⟩
  · exact fun h => ⟨h.name, h.value, h.head, h.last⟩

instance (header : Field) : Decidable (HeaderOk header) :=
  decidable_of_iff (headerOk header = true) (headerOk_iff header)

/-- A request: its method, its path with the query, and its headers. -/
structure Request where
  method : String
  path : String
  headers : List Field
  line : '\n' ∉ method.toList ∧ '\n' ∉ path.toList
  headersOk : ∀ h ∈ headers, HeaderOk h

/-- `host`: the text of the host header up to a colon. -/
def Request.host (req : Request) : String :=
  (((req.headers.lookup "host").bind toStr).map fun h =>
    String.ofList (h.toList.takeWhile (· ≠ ':'))).getD ""

/-- `is_upgrade`. -/
def Request.isUpgrade (req : Request) : Bool := (req.headers.lookup "upgrade").isSome

/-! ## 2. The function -/

/-- What the proxy knows of the cluster: its route table, and the API server's answers. -/
structure Known where
  table : RouteTable
  service : String → String → Option Service
  endpoints : String → String → Option Endpoints

/-- The hosts of the OAuth server, which the proxy reaches on its own machine. -/
def oauthHosts : List String := ["oauth-openshift.apps.ocp-sim.test", "entra.apps.ocp-sim.test"]

/-- The address a request goes to and whether it is reached over TLS, or a refusal. -/
def destination (known : Known) (host : String) : Except Response (SocketAddr × Bool) :=
  if oauthHosts.contains host then .ok (⟨.v4 [127, 0, 0, 1], 9443⟩, true)
  else
  match known.table.get host with
  | none => .error ⟨502, [], "no route for host: " ++ host ++ "\n"⟩
  | some backend =>
  match resolveEndpoint (known.service backend.serviceNamespace backend.serviceName)
      (known.endpoints backend.serviceNamespace backend.serviceName) backend with
  | none => .error ⟨503, [], "no endpoints for " ++ backend.serviceNamespace ++ "/" ++
      backend.serviceName ++ "\n"⟩
  | some addr => .ok (addr, backend.tls)

/-- The headers the proxy adds on the plain path. -/
def addedHeaders (tlsIncoming : Bool) : List Field :=
  if tlsIncoming then
    [("x-forwarded-proto", Utf8.encode "https"), ("x-forwarded-scheme", Utf8.encode "https"),
      ("x-forwarded-port", Utf8.encode "443")]
  else [("x-forwarded-proto", Utf8.encode "http")]

/-- The headers of `proxy_req`. -/
def proxyHeaders (req : Request) (tlsIncoming : Bool) : List Field :=
  req.headers.filter (fun h => h.1 ≠ "host") ++ [("host", Utf8.encode req.host)] ++
    addedHeaders tlsIncoming

/-- What `proxy_request` does with a request: it answers by itself, or sends a request to an address,
over TLS or not, as headers or as the text of a head. -/
inductive Forwarded where
  | refused (response : Response)
  | plain (addr : SocketAddr) (tls : Bool) (method path : String) (headers : List Field)
  | upgrade (addr : SocketAddr) (tls : Bool) (head : List UInt8)

/-- `proxy_request`, up to the point where the request is sent. -/
def proxyRequest (known : Known) (tlsIncoming : Bool) (req : Request) : Forwarded :=
  match destination known req.host with
  | .error response => .refused response
  | .ok (addr, backendTls) =>
    if req.isUpgrade then
      .upgrade addr backendTls
        (Utf8.encode (rawReq ⟨req.method, req.headers⟩ req.host req.path tlsIncoming))
    else .plain addr backendTls req.method req.path (proxyHeaders req tlsIncoming)

/-- The head is what `ws_handshake_and_tunnel` writes to an upstream that takes it. -/
theorem sent_wsHandshakeAndTunnel (full : List String → Bool) {upstream : Upstream} (h : upstream.accepts = true)
    (req : UpgradeRequest) (host path : String) (tlsIncoming : Bool) (client : ClientSide) :
    (wsHandshakeAndTunnel full req host path tlsIncoming upstream client).sent =
      Utf8.encode (rawReq req host path tlsIncoming) := by
  rw [wsHandshakeAndTunnel]
  simp only [h, Bool.true_eq_false, if_false]
  generalize Utf8.encode (rawReq req host path tlsIncoming) = sent
  split
  · rfl
  · split
    · rfl
    · split <;> rfl

/-- The header fields an upstream receives. -/
def Forwarded.fields : Forwarded → Option (List Field)
  | refused _ => none
  | plain _ _ _ _ headers => some headers
  | upgrade _ _ head => some (readFields head)

/-! ## 3. What the upstream should see -/

/-- The headers that say how the client reached the proxy. -/
def forwardedNames : List String := ["x-forwarded-proto", "x-forwarded-scheme", "x-forwarded-port"]

/-- The scheme of a listener. -/
def scheme (tlsIncoming : Bool) : List UInt8 := Utf8.encode (if tlsIncoming then "https" else "http")

/-- Two requests that differ in these headers only. -/
structure DifferInForwarded (a b : Request) : Prop where
  method : a.method = b.method
  path : a.path = b.path
  headers : a.headers.filter (fun h => !forwardedNames.contains h.1) =
    b.headers.filter (fun h => !forwardedNames.contains h.1)

/-- The upstream sees the same values in both, and the scheme of the listener alone. -/
structure Isolated (tlsIncoming : Bool) (fs gs : List Field) : Prop where
  same : ∀ name ∈ forwardedNames, valuesOf name fs = valuesOf name gs
  left : valuesOf "x-forwarded-proto" fs = [scheme tlsIncoming]
  right : valuesOf "x-forwarded-proto" gs = [scheme tlsIncoming]

/-- The values of a header that the proxy passes on: all of them, or on the upgrade path those that
are text. -/
def Request.passed (req : Request) (name : String) : List (List UInt8) :=
  valuesOf name (if req.isUpgrade then req.headers.filter fun h => (toStr h.2).isSome
    else req.headers)

/-- What the proxy adds on either path. -/
def added (isUpgrade tlsIncoming : Bool) : List Field :=
  if isUpgrade then
    (if tlsIncoming then [("x-forwarded-proto", Utf8.encode "https")] else [])
  else addedHeaders tlsIncoming

/-- What the proxy leaves to the client to say about the scheme: on an upgrade over HTTP it says
nothing itself. -/
def leftToSay (isUpgrade tlsIncoming : Bool) : List (List UInt8) :=
  if isUpgrade && !tlsIncoming then [Utf8.encode "http"] else []

/-! ## 4. The two paths -/

/-- A header that is not dropped is found where it was. -/
theorem lookup_filter {p : String → Bool} {key : String} (hp : p key = true) (fs : List Field) :
    (fs.filter fun f => p f.1).lookup key = fs.lookup key := by
  induction fs with
  | nil => rfl
  | cons f fs ih =>
    obtain ⟨k, v⟩ := f
    by_cases hk : k = key
    · subst hk
      simp only [List.filter_cons, hp, if_true, List.lookup_cons, beq_self_eq_true]
    · have hne : (key == k) = false := by simpa using Ne.symm hk
      rw [List.lookup_cons, hne, List.filter_cons]
      split
      · rw [List.lookup_cons, hne, ih]
      · exact ih

theorem DifferInForwarded.lookup {a b : Request} (h : DifferInForwarded a b) {key : String}
    (hkey : forwardedNames.contains key = false) : a.headers.lookup key = b.headers.lookup key := by
  have hp : (!forwardedNames.contains key) = true := by
    rw [hkey]
    rfl
  have hlookup := fun req : Request =>
    lookup_filter (p := fun name => !forwardedNames.contains name) hp req.headers
  rw [← hlookup a, h.headers, hlookup b]

theorem DifferInForwarded.isUpgrade {a b : Request} (h : DifferInForwarded a b) :
    a.isUpgrade = b.isUpgrade := by
  rw [Request.isUpgrade, Request.isUpgrade, h.lookup (by decide +kernel)]

/-- Two such requests go the same way. -/
theorem DifferInForwarded.destination {a b : Request} (h : DifferInForwarded a b) (known : Known) :
    destination known a.host = Proxy.destination known b.host := by
  rw [Request.host, Request.host, h.lookup (by decide +kernel)]

/-- Both are sent on, or neither. -/
theorem DifferInForwarded.isSome_fields {a b : Request} (h : DifferInForwarded a b) (known : Known)
    (tlsIncoming : Bool) : (proxyRequest known tlsIncoming a).fields.isSome =
      (proxyRequest known tlsIncoming b).fields.isSome := by
  rw [proxyRequest, proxyRequest, h.destination, h.isUpgrade]
  split
  · rfl
  · split <;> simp only [Forwarded.fields, Option.isSome_some]

theorem not_host {name : String} (h : name ∈ forwardedNames) : name ≠ "host" := by
  rintro rfl
  exact absurd h (by decide +kernel)

theorem valuesOf_proxyHeaders {name : String} (hname : name ∈ forwardedNames) (req : Request)
    (tlsIncoming : Bool) : valuesOf name (proxyHeaders req tlsIncoming) =
      valuesOf name req.headers ++ valuesOf name (addedHeaders tlsIncoming) := by
  have hfilter : valuesOf name (req.headers.filter fun h => h.1 ≠ "host") =
      valuesOf name req.headers := by
    refine HttpHead.valuesOf_filter fun f _ hf => ?_
    rw [decide_eq_true_eq, hf]
    exact not_host hname
  have hhost : valuesOf name [("host", Utf8.encode req.host)] = [] := by
    rw [HttpHead.valuesOf_cons, if_neg (not_host hname).symm]
    rfl
  rw [proxyHeaders, HttpHead.valuesOf_append, HttpHead.valuesOf_append, hfilter, hhost,
    List.append_nil]

theorem toLower_eq_self {c : Char} (h : c.isUpper = false) : c.toLower = c := by
  have hnot : ¬ (c.val ≥ 'A'.val ∧ c.val ≤ 'Z'.val) := by
    intro hc
    have hup : c.isUpper = true := decide_eq_true hc
    rw [h] at hup
    cases hup
  exact dif_neg hnot

section HeaderOk

variable {header : Field} (h : HeaderOk header)

include h

theorem HeaderOk.fieldOk : HttpHead.FieldOk header := by
  refine ⟨fun c hc => ?_, fun hmem => ?_⟩
  · have hchar := List.all_eq_true.mp h.name c hc
    rw [Bool.and_eq_true] at hchar
    obtain ⟨hlow, hhigh, hcolon⟩ := isTokenChar_range hchar.1
    refine ⟨by omega, hcolon, ?_⟩
    rintro rfl
    exact absurd hlow (by decide)
  · have hbyte := List.all_eq_true.mp h.value 10 hmem
    exact absurd hbyte (by decide)

theorem HeaderOk.lowerName : HttpHead.lowerName header.1 = header.1 := by
  have hchar : ∀ c ∈ header.1.toList, c.toLower = c := by
    intro c hc
    have hchar := List.all_eq_true.mp h.name c hc
    rw [Bool.and_eq_true, Bool.not_eq_true'] at hchar
    exact toLower_eq_self hchar.2
  rw [HttpHead.lowerName, List.map_congr_left hchar, List.map_id', String.ofList_toList]

theorem HeaderOk.strip : HttpHead.strip header.2 = header.2 :=
  HttpHead.strip_eq_self h.head h.last

end HeaderOk

/-- The text of a value has a character for each byte, which is visible or a tab. -/
theorem toStr_eq_some {value : List UInt8} {text : String} (h : toStr value = some text) :
    text.toList.map Char.toNat = value.map UInt8.toNat ∧
      ∀ c ∈ text.toList, (32 ≤ c.toNat ∧ c.toNat < 127) ∨ c.toNat = 9 := by
  rw [toStr] at h
  split at h
  · rename_i hall
    rw [Option.some.injEq] at h
    subst h
    have hvisible : ∀ b ∈ value, (32 ≤ b.toNat ∧ b.toNat < 127) ∨ b.toNat = 9 := by
      intro b hb
      have hbyte := List.all_eq_true.mp hall b hb
      simpa using hbyte
    have hchar : ∀ b ∈ value, (Char.ofNat b.toNat).toNat = b.toNat := by
      intro b hb
      have hbyte := hvisible b hb
      exact Utf8.toNat_ofNat_of_valid (Or.inl (by omega))
    rw [String.toList_ofList]
    refine ⟨?_, fun c hc => ?_⟩
    · rw [List.map_map]
      exact List.map_congr_left hchar
    · obtain ⟨b, hb, rfl⟩ := List.mem_map.mp hc
      rw [hchar b hb]
      exact hvisible b hb
  · cases h

/-- The text of a value has the bytes of the value. -/
theorem encode_of_toStr {value : List UInt8} {text : String} (h : toStr value = some text) :
    Utf8.encode text = value := by
  obtain ⟨hchars, hrange⟩ := toStr_eq_some h
  have hascii : ∀ c ∈ text.toList, c.toNat < 0x80 := by
    intro c hc
    have hc := hrange c hc
    omega
  have hbytes : text.toList.map (fun c => UInt8.ofNat c.toNat) = (text.toList.map Char.toNat).map UInt8.ofNat := by
    rw [List.map_map]
    rfl
  rw [Utf8.encode_ascii hascii, hbytes, hchars, List.map_map]
  refine (List.map_congr_left fun b _ => ?_).trans (List.map_id _)
  exact UInt8.ofNat_toNat

/-- The headers that the upgrade path passes on. -/
def upgradeHeaders (headers : List Field) : List Field :=
  headers.filter fun h => h.1 ≠ "host" && (toStr h.2).isSome

/-- The line of a header on the upgrade path. -/
theorem encode_forwardedLines (headers : List Field) :
    Utf8.encode (String.join (headers.map forwardedLine)) =
      (upgradeHeaders headers).flatMap HttpHead.fieldBytes := by
  rw [Utf8.encode_join]
  induction headers with
  | nil => rfl
  | cons header headers ih =>
    rw [List.map_cons, List.flatMap_cons, ih, upgradeHeaders, upgradeHeaders, List.filter_cons]
    by_cases hhost : header.1 = "host"
    · simp [forwardedLine, hhost, Utf8.encode]
    · cases htext : toStr header.2 with
      | none => simp [forwardedLine, hhost, htext, Utf8.encode]
      | some text =>
        have hline : Utf8.encode (forwardedLine header) = HttpHead.fieldBytes header := by
          have hcolon : Utf8.encode ": " = [58, 32] := by decide
          have hcrlf : Utf8.encode "\r\n" = [13, 10] := by decide
          simp only [forwardedLine, hhost, htext, if_false, Utf8.encode_append, hcolon, hcrlf,
            encode_of_toStr htext, HttpHead.fieldBytes]
          simp
        simp [hhost, hline]

/-- The fields of the head that the upgrade path writes. -/
def upgradeFields (req : Request) (tlsIncoming : Bool) : List Field :=
  ("Host", Utf8.encode req.host) :: upgradeHeaders req.headers ++
    if tlsIncoming then [("X-Forwarded-Proto", Utf8.encode "https")] else []

/-- The head is a first line and these fields. -/
theorem encode_rawReq (req : Request) (tlsIncoming : Bool) :
    Utf8.encode (rawReq ⟨req.method, req.headers⟩ req.host req.path tlsIncoming) =
      Utf8.encode (req.method ++ " " ++ req.path ++ " HTTP/1.1") ++ 13 :: 10 ::
        ((upgradeFields req tlsIncoming).flatMap HttpHead.fieldBytes ++ 13 :: 10 :: []) := by
  have hhost : Utf8.encode " HTTP/1.1\r\nHost: " =
      Utf8.encode " HTTP/1.1" ++ 13 :: 10 :: (Utf8.encode "Host" ++ [58, 32]) := by decide
  have hcrlf : Utf8.encode "\r\n" = [13, 10] := by decide
  have htls : Utf8.encode (if tlsIncoming then "X-Forwarded-Proto: https\r\n" else "") =
      (if tlsIncoming then [(("X-Forwarded-Proto", Utf8.encode "https") : Field)]
        else []).flatMap HttpHead.fieldBytes := by
    cases tlsIncoming <;> decide +kernel
  simp only [rawReq, upgradeFields, Utf8.encode_append, encode_forwardedLines, hhost, hcrlf, htls,
    List.flatMap_append, List.flatMap_cons, HttpHead.fieldBytes, List.append_assoc, List.cons_append,
    List.nil_append]

/-- The host is part of a text. -/
theorem host_chars (req : Request) :
    ∀ c ∈ req.host.toList, (32 ≤ c.toNat ∧ c.toNat < 127) ∨ c.toNat = 9 := by
  rw [Request.host]
  cases htext : (req.headers.lookup "host").bind toStr with
  | none => exact fun c hc => absurd hc List.not_mem_nil
  | some text =>
    obtain ⟨value, -, hvalue⟩ := Option.bind_eq_some_iff.mp htext
    rw [Option.map_some, Option.getD_some, String.toList_ofList]
    intro c hc
    exact (toStr_eq_some hvalue).2 c ((List.takeWhile_sublist _).mem hc)

theorem newline_not_mem_host (req : Request) : '\n' ∉ req.host.toList :=
  fun hmem => absurd (host_chars req '\n' hmem) (by decide)

theorem linefeed_not_mem_encode {s : String} (h : '\n' ∉ s.toList) : (10 : UInt8) ∉ Utf8.encode s :=
  Utf8.not_mem_encode (by decide) fun c hc he =>
    h ((Char.toNat_inj.mp he : c = '\n') ▸ hc)

theorem fieldOk_upgradeFields (req : Request) (tlsIncoming : Bool) :
    ∀ f ∈ upgradeFields req tlsIncoming, HttpHead.FieldOk f := by
  intro f hf
  rw [upgradeFields, List.cons_append, List.mem_cons, List.mem_append] at hf
  rcases hf with rfl | hf | hf
  · refine ⟨by simp, ?_⟩
    exact linefeed_not_mem_encode (newline_not_mem_host req)
  · exact (req.headersOk f (List.mem_filter.mp hf).1).fieldOk
  · cases tlsIncoming with
    | false => cases hf
    | true =>
      rw [if_pos rfl, List.mem_singleton] at hf
      subst hf
      exact ⟨by simp, by decide⟩

/-- **What the upgrade path tells the upstream**, read out of the text. -/
theorem readFields_rawReq (req : Request) (tlsIncoming : Bool) :
    readFields (Utf8.encode (rawReq ⟨req.method, req.headers⟩ req.host req.path tlsIncoming)) =
      ("host", HttpHead.strip (Utf8.encode req.host)) :: upgradeHeaders req.headers ++
        if tlsIncoming then [("x-forwarded-proto", Utf8.encode "https")] else [] := by
  have hline : (10 : UInt8) ∉ Utf8.encode (req.method ++ " " ++ req.path ++ " HTTP/1.1") := by
    refine linefeed_not_mem_encode ?_
    simp [req.line.1, req.line.2]
  have hheaders : (upgradeHeaders req.headers).map
        (fun f => (HttpHead.lowerName f.1, HttpHead.strip f.2)) = upgradeHeaders req.headers := by
    refine (List.map_congr_left fun f hf => ?_).trans (List.map_id _)
    have hok := req.headersOk f (List.mem_filter.mp hf).1
    rw [hok.lowerName, hok.strip]
    rfl
  have hhost : HttpHead.lowerName "Host" = "host" := by decide +kernel
  have htls : (if tlsIncoming then [(("X-Forwarded-Proto", Utf8.encode "https") : Field)] else []).map
        (fun f => (HttpHead.lowerName f.1, HttpHead.strip f.2)) =
      if tlsIncoming then [("x-forwarded-proto", Utf8.encode "https")] else [] := by
    cases tlsIncoming <;> decide +kernel
  rw [encode_rawReq, HttpHead.readFields_head hline (fieldOk_upgradeFields req tlsIncoming),
    upgradeFields, List.map_append, List.map_cons, hheaders, hhost, htls]

/-! ## 5. The condition -/

theorem valuesOf_upgradeHeaders {name : String} (hname : name ∈ forwardedNames) (headers : List Field) :
    valuesOf name (upgradeHeaders headers) =
      valuesOf name (headers.filter fun h => (toStr h.2).isSome) := by
  have hsplit : upgradeHeaders headers =
      (headers.filter fun h => (toStr h.2).isSome).filter fun h => h.1 ≠ "host" := by
    rw [upgradeHeaders, List.filter_filter]
  rw [hsplit]
  refine HttpHead.valuesOf_filter fun f _ hf => ?_
  rw [decide_eq_true_eq, hf]
  exact not_host hname

/-- Whatever the path, an upstream receives what is passed on and what the proxy adds. -/
theorem valuesOf_fields {known : Known} {tlsIncoming : Bool} {req : Request} {fs : List Field}
    (h : (proxyRequest known tlsIncoming req).fields = some fs) {name : String}
    (hname : name ∈ forwardedNames) :
    valuesOf name fs = req.passed name ++ valuesOf name (added req.isUpgrade tlsIncoming) := by
  rw [proxyRequest] at h
  split at h
  · cases h
  · cases hup : req.isUpgrade with
    | false =>
      simp only [hup, Bool.false_eq_true, if_false, Forwarded.fields, Option.some.injEq] at h
      rw [← h, Request.passed, hup, added, valuesOf_proxyHeaders hname]
      rfl
    | true =>
      simp only [hup, if_true, Forwarded.fields, Option.some.injEq] at h
      rw [← h, readFields_rawReq, Request.passed, hup, added, HttpHead.valuesOf_append,
        HttpHead.valuesOf_cons, if_neg (not_host hname).symm, valuesOf_upgradeHeaders hname]
      rfl

/-- The proxy says the scheme of the listener once, unless it leaves that to the client. -/
theorem append_added_iff (isUpgrade tlsIncoming : Bool) (values : List (List UInt8)) :
    values ++ valuesOf "x-forwarded-proto" (added isUpgrade tlsIncoming) = [scheme tlsIncoming] ↔
      values = leftToSay isUpgrade tlsIncoming := by
  by_cases hleft : isUpgrade = true ∧ tlsIncoming = false
  · obtain ⟨rfl, rfl⟩ := hleft
    have hnone : valuesOf "x-forwarded-proto" (added true false) = [] := by decide +kernel
    rw [hnone, List.append_nil]
    rfl
  · have hone : valuesOf "x-forwarded-proto" (added isUpgrade tlsIncoming) = [scheme tlsIncoming] ∧
        leftToSay isUpgrade tlsIncoming = [] := by
      revert hleft
      cases isUpgrade <;> cases tlsIncoming <;> decide +kernel
    rw [hone.1, hone.2]
    simp

/-- What both requests have to leave unsaid: the scheme, unless the proxy leaves it to them, and
whatever the other one does not say of scheme and port. -/
structure Unspoken (tlsIncoming : Bool) (a b : Request) : Prop where
  left : a.passed "x-forwarded-proto" = leftToSay a.isUpgrade tlsIncoming
  right : b.passed "x-forwarded-proto" = leftToSay b.isUpgrade tlsIncoming
  scheme : a.passed "x-forwarded-scheme" = b.passed "x-forwarded-scheme"
  port : a.passed "x-forwarded-port" = b.passed "x-forwarded-port"

/-- **The upstream cannot tell two requests apart by what their clients say of the connection, and
reads the scheme of the listener, exactly when neither client says anything the proxy says and both
say the same of the rest.** -/
theorem forwarded_isolated_iff (known : Known) (tlsIncoming : Bool) {a b : Request}
    (h : DifferInForwarded a b) {fs gs : List Field}
    (ha : (proxyRequest known tlsIncoming a).fields = some fs)
    (hb : (proxyRequest known tlsIncoming b).fields = some gs) :
    Isolated tlsIncoming fs gs ↔ Unspoken tlsIncoming a b := by
  have hproto : "x-forwarded-proto" ∈ forwardedNames := .head _
  have hscheme : "x-forwarded-scheme" ∈ forwardedNames := .tail _ (.head _)
  have hport : "x-forwarded-port" ∈ forwardedNames := .tail _ (.tail _ (.head _))
  -- The same is added to both, so equal values are equal values passed on.
  have hsame : ∀ name ∈ forwardedNames,
      valuesOf name fs = valuesOf name gs ↔ a.passed name = b.passed name := by
    intro name hname
    rw [valuesOf_fields ha hname, valuesOf_fields hb hname, h.isUpgrade, List.append_left_inj]
  have hone : ∀ {req : Request} {hs : List Field},
      (proxyRequest known tlsIncoming req).fields = some hs →
      (valuesOf "x-forwarded-proto" hs = [Proxy.scheme tlsIncoming] ↔
        req.passed "x-forwarded-proto" = leftToSay req.isUpgrade tlsIncoming) := by
    intro req hs hreq
    rw [valuesOf_fields hreq hproto]
    exact append_added_iff req.isUpgrade tlsIncoming _
  constructor
  · intro hiso
    exact ⟨(hone ha).mp hiso.left, (hone hb).mp hiso.right, (hsame _ hscheme).mp (hiso.same _ hscheme),
      (hsame _ hport).mp (hiso.same _ hport)⟩
  · intro hun
    have hleft := (hone ha).mpr hun.left
    have hright := (hone hb).mpr hun.right
    refine ⟨fun name hname => ?_, hleft, hright⟩
    rw [forwardedNames, List.mem_cons, List.mem_cons, List.mem_singleton] at hname
    rcases hname with rfl | rfl | rfl
    · rw [hleft, hright]
    · exact (hsame _ hscheme).mpr hun.scheme
    · exact (hsame _ hport).mpr hun.port

/-- A proxy that knows no route. -/
def noRoutes : Known := ⟨Map.empty, fun _ _ => none, fun _ _ => none⟩

/-- A request for the OAuth server, with more headers. -/
def oauthRequest (more : List Field) (h : ∀ f ∈ more, HeaderOk f) : Request where
  method := "GET"
  path := "/healthz"
  headers := ("host", Utf8.encode "oauth-openshift.apps.ocp-sim.test") :: more
  line := by decide
  headersOk := List.forall_mem_cons.mpr ⟨by decide +kernel, h⟩

/-- The client says nothing of its connection. -/
def silent : Request := oauthRequest [] (by decide)

/-- The client says it came over HTTPS. -/
def claimsHttps : Request :=
  oauthRequest [("x-forwarded-proto", Utf8.encode "https")] (by decide +kernel)

/-- An upgrade whose client says nothing of its connection. -/
def silentUpgrade : Request := oauthRequest [("upgrade", Utf8.encode "websocket")] (by decide +kernel)

/-- An upgrade whose client says something that is not text. -/
def rawUpgrade : Request :=
  oauthRequest [("upgrade", Utf8.encode "websocket"), ("x-forwarded-proto", [0xff])] (by decide +kernel)

theorem forwarded_isolated_iff_rawUpgrade :
    ∃ fs gs, (proxyRequest noRoutes true silentUpgrade).fields = some fs ∧
      (proxyRequest noRoutes true rawUpgrade).fields = some gs ∧ Isolated true fs gs := by
  have hdiffer : DifferInForwarded silentUpgrade rawUpgrade := ⟨rfl, rfl, by decide +kernel⟩
  have hsent : (proxyRequest noRoutes true silentUpgrade).fields.isSome := by decide +kernel
  obtain ⟨fs, hfs⟩ := Option.isSome_iff_exists.mp hsent
  obtain ⟨gs, hgs⟩ := Option.isSome_iff_exists.mp (hdiffer.isSome_fields noRoutes true ▸ hsent)
  refine ⟨fs, gs, hfs, hgs, (forwarded_isolated_iff noRoutes true hdiffer hfs hgs).mpr ?_⟩
  exact ⟨by decide +kernel, by decide +kernel, by decide +kernel, by decide +kernel⟩

/-- On the plain path a client's word stands in front of the proxy's; an upgrade over HTTP says
nothing at all. -/
theorem forwarded_isolated_spoofed :
    DifferInForwarded silent claimsHttps ∧
      ((proxyRequest noRoutes false silent).fields.map (valuesOf "x-forwarded-proto") =
          some [Utf8.encode "http"] ∧
        (proxyRequest noRoutes false claimsHttps).fields.map (valuesOf "x-forwarded-proto") =
          some [Utf8.encode "https", Utf8.encode "http"]) ∧
      (proxyRequest noRoutes false silentUpgrade).fields.map (valuesOf "x-forwarded-proto") =
        some [] :=
  ⟨⟨rfl, rfl, by decide +kernel⟩, by decide +kernel, by decide +kernel⟩

end Picoshift.Proxy
