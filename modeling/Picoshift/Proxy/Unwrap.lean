/-
# Where the proxy can panic

The builders of the `http` crate keep an error to themselves until the end, and the proxy unwraps the end.  So every
text that goes into a builder has to be one that the crate accepts.

Most of them are: the proxy's own, and what `hyper` has parsed before.  Four are not.

* The URI of a request that goes out over TLS is the path of the client's target.  A target in absolute form
  may have a query and no path, and then that is a text beginning with `?`, which is no URI.
* The URI of a request that goes out over HTTP has an address in front of the path.  The path may be as long as
  a URI may be, and then the whole is too long.
* The status and the headers of an upstream's answer to an upgrade are taken out of its bytes as they are.
* A map of headers can be full, at some ten thousands of them.  Only the answer to an upgrade can have so many, since
  `hyper` takes a hundred; but the builders are the same everywhere, and the condition says it for each of them.

Apart from these nothing panics, whatever the client sends, wherever it leads and whatever comes back
(`no_panic_iff`).
-/
import Picoshift.Lib.Uri
import Picoshift.Proxy.Forward
import Picoshift.Proxy.ResponseHead

namespace Picoshift.Proxy

open Chunks (readUntil)
open HttpHead (Field)

/-! ## 1. Building the request -/

/-- `addr.to_string()`. -/
def SocketAddr.display (addr : SocketAddr) : List Char :=
  match addr.ip with
  | .v4 _ => addr.ip.display ++ ':' :: Nat.toDigits 10 addr.port
  | .v6 _ => '[' :: (addr.ip.display ++ ']' :: ':' :: Nat.toDigits 10 addr.port)

/-- `uri`: the path alone to a backend that speaks TLS, and behind the address otherwise. -/
def proxyUri (addr : SocketAddr) (backendTls : Bool) (path : String) : List Char :=
  if backendTls then path.toList
  else ['h', 't', 't', 'p', ':', '/', '/'] ++ (addr.display ++ path.toList)

/-- `Request::builder()`: a method, a URI and headers, or `none` once something was refused. -/
structure RequestBuilder where
  parts : Option (String × Uri × List Field)

/-- `Request::builder().method(method).uri(uri)`. -/
def RequestBuilder.new (method : String) (uri : List Char) : RequestBuilder :=
  ⟨(Uri.parse uri).map fun u => (method, u, [])⟩

/-- `builder.header(key, value)`, of a header that the crate has made: only the map can refuse it. -/
def RequestBuilder.header (full : List String → Bool) (b : RequestBuilder) (header : Field) : RequestBuilder :=
  ⟨b.parts.bind fun (method, u, headers) =>
    if full (headers.map Prod.fst) then none else some (method, u, headers ++ [header])⟩

/-- `builder.header(key, value)`, of two texts. -/
def RequestBuilder.textHeader (full : List String → Bool) (b : RequestBuilder) (kv : String × String) :
    RequestBuilder :=
  ⟨b.parts.bind fun (method, u, headers) =>
    if validName kv.1 && validValue kv.2 then
      if full (headers.map Prod.fst) then none else some (method, u, headers ++ [(kv.1, Utf8.encode kv.2)])
    else none⟩

/-- The texts that are added. -/
def addedTexts (tlsIncoming : Bool) : List (String × String) :=
  if tlsIncoming then
    [("x-forwarded-proto", "https"), ("x-forwarded-scheme", "https"), ("x-forwarded-port", "443")]
  else [("x-forwarded-proto", "http")]

/-- `proxy_req`. -/
def proxyReq (full : List String → Bool) (req : Request) (tlsIncoming : Bool) (uri : List Char) : RequestBuilder :=
  let proxyReq := (req.headers.filter (fun h => h.1 ≠ "host")).foldl (RequestBuilder.header full)
    (RequestBuilder.new req.method uri)
  (addedTexts tlsIncoming).foldl (RequestBuilder.textHeader full) (proxyReq.textHeader full ("host", req.host))

/-- Headers are appended as long as there is room. -/
theorem parts_foldl_requestHeader (full : List String → Bool) (b : RequestBuilder) (headers : List Field) :
    (headers.foldl (RequestBuilder.header full) b).parts = b.parts.bind fun (method, u, hs) =>
      if HeaderMap.fits full (hs.map Prod.fst) (headers.map Prod.fst) then some (method, u, hs ++ headers)
      else none := by
  induction headers generalizing b with
  | nil => cases h : b.parts <;> simp [h, HeaderMap.fits]
  | cons header headers ih =>
    rw [List.foldl_cons, ih, RequestBuilder.header]
    cases b.parts with
    | none => rfl
    | some parts => cases hfull : full (parts.2.2.map Prod.fst) <;> simp [hfull, HeaderMap.fits]

/-- So are texts that are headers. -/
theorem parts_foldl_textHeader (full : List String → Bool) (b : RequestBuilder) {kvs : List (String × String)}
    (h : ∀ kv ∈ kvs, (validName kv.1 && validValue kv.2) = true) :
    kvs.foldl (RequestBuilder.textHeader full) b =
      (kvs.map fun kv => (kv.1, Utf8.encode kv.2)).foldl (RequestBuilder.header full) b := by
  induction kvs generalizing b with
  | nil => rfl
  | cons kv kvs ih =>
    rw [List.forall_mem_cons] at h
    have hstep : RequestBuilder.textHeader full b kv = RequestBuilder.header full b (kv.1, Utf8.encode kv.2) := by
      rw [RequestBuilder.textHeader, RequestBuilder.header]
      simp only [h.1, if_true]
    rw [List.foldl_cons, ih _ h.2, List.map_cons, List.foldl_cons, hstep]

/-- The host is taken from a header that is text, so it can be one again. -/
theorem validValue_host (req : Request) : validValue req.host = true := by
  refine List.all_eq_true.mpr fun c hc => ?_
  rcases host_chars req c hc with hvisible | htab
  · have hne : c.toNat ≠ 127 := by omega
    simp [hvisible.1, hne]
  · obtain rfl : c = '\t' := Char.toNat_inj.mp htab
    decide

/-- **The request is built when its URI is one and its headers fit.**  The headers are those that are forwarded. -/
theorem parts_proxyReq (full : List String → Bool) (req : Request) (tlsIncoming : Bool) (uri : List Char) :
    (proxyReq full req tlsIncoming uri).parts = (Uri.parse uri).bind fun u =>
      if HeaderMap.fits full [] ((proxyHeaders req tlsIncoming).map Prod.fst) then
        some (req.method, u, proxyHeaders req tlsIncoming)
      else none := by
  have hadded : ∀ kv ∈ ("host", req.host) :: addedTexts tlsIncoming, (validName kv.1 && validValue kv.2) = true := by
    have hname : validName "host" = true := by decide +kernel
    refine List.forall_mem_cons.mpr ⟨?_, by cases tlsIncoming <;> decide +kernel⟩
    rw [hname, validValue_host, Bool.true_and]
  have htexts : (addedTexts tlsIncoming).map (fun kv => (kv.1, Utf8.encode kv.2)) = addedHeaders tlsIncoming := by
    cases tlsIncoming <;> rfl
  have hfold : proxyReq full req tlsIncoming uri =
      (proxyHeaders req tlsIncoming).foldl (RequestBuilder.header full) (RequestBuilder.new req.method uri) := by
    have htail := parts_foldl_textHeader full ((req.headers.filter (fun h => h.1 ≠ "host")).foldl
      (RequestBuilder.header full) (RequestBuilder.new req.method uri)) hadded
    rw [List.foldl_cons, List.map_cons, htexts, ← List.foldl_append] at htail
    rw [proxyReq, htail, proxyHeaders, List.append_assoc, List.singleton_append]
  rw [hfold, parts_foldl_requestHeader, RequestBuilder.new]
  cases Uri.parse uri with
  | none => rfl
  | some u => simp

/-! ## 2. The URI -/

/-- The path of the request is that of a target that `hyper` accepts. -/
def Targeted (req : Request) : Prop := ∃ target u, Uri.parse target = some u ∧ req.path.toList = u.pathText

theorem isHostChar_of_isAlphanum {c : Char} (h : c.isAlphanum = true) : Uri.isHostChar c = true := by
  simp [Uri.isHostChar, Uri.isPlainChar, h]

theorem isHostChar_of_mem_display {ip : IpAddr} {c : Char} (h : c ∈ ip.display) : Uri.isHostChar c = true := by
  have hc := IpAddr.display_chars ip h
  simp only [IpAddr.isAddrChar, Bool.or_eq_true, beq_iff_eq] at hc
  rcases hc with (hc | rfl) | rfl
  · exact isHostChar_of_isAlphanum hc
  · decide
  · decide

/-- The port, behind its colon. -/
theorem port_chars (port : Nat) : (∀ c ∈ ':' :: Nat.toDigits 10 port, Uri.isHostChar c = true) ∧
    (':' :: Nat.toDigits 10 port).count ':' = 1 := by
  refine ⟨List.forall_mem_cons.mpr ⟨by decide, fun c hc => ?_⟩, ?_⟩
  · exact isHostChar_of_isAlphanum (IpAddr.isAlphanum_of_mem_toDigits (by decide) (by decide) hc)
  · rw [List.count_cons_self,
      List.count_eq_zero.mpr (IpAddr.colon_not_mem_toDigits (by decide) (by decide))]

/-- An address can stand in a URI. -/
theorem authority_display {addr : SocketAddr} (h : addr.ip.WellFormed) : Uri.Authority addr.display := by
  obtain ⟨ip, port⟩ := addr
  obtain ⟨hport, hone⟩ := port_chars port
  cases ip with
  | v4 octets =>
    have hchars : ∀ c ∈ IpAddr.display (.v4 octets) ++ ':' :: Nat.toDigits 10 port, Uri.isHostChar c = true :=
      List.forall_mem_append.mpr ⟨fun c hc => isHostChar_of_mem_display hc, hport⟩
    rw [SocketAddr.display]
    refine Uri.authority_host hchars ?_ (by simp)
    rw [List.count_append, hone, IpAddr.display, IpAddr.count_displayV4]
  | v6 segments =>
    exact Uri.authority_brackets (fun c hc => isHostChar_of_mem_display hc) (IpAddr.count_display h) hport
      (Nat.le_of_eq hone)

/-- **When the URI is one**: over TLS when it does not begin with a query, and over HTTP when it is not too
long. -/
theorem isSome_parse_proxyUri {req : Request} (htarget : Targeted req) {addr : SocketAddr}
    (haddr : addr.ip.WellFormed) (backendTls : Bool) :
    (Uri.parse (proxyUri addr backendTls req.path)).isSome ↔
      if backendTls then req.path.toList.head? ≠ some '?'
      else Uri.byteLen (proxyUri addr backendTls req.path) ≤ Uri.maxLen := by
  obtain ⟨target, u, hparse, hpath⟩ := htarget
  obtain ⟨hlike, hlen⟩ := Uri.pathText_cases hparse
  rw [proxyUri, hpath]
  cases backendTls with
  | true => exact Uri.isSome_parse_pathLike hlike hlen
  | false => exact Uri.isSome_parse_absolute (authority_display haddr) hlike

theorem wellFormed_of_destination {known : Known} {host : String} {addr : SocketAddr} {backendTls : Bool}
    (h : destination known host = .ok (addr, backendTls)) : addr.ip.WellFormed := by
  rw [destination] at h
  split at h
  · cases h
    rfl
  split at h
  · cases h
  split at h
  · cases h
  · rename_i hresolve
    cases h
    obtain ⟨⟨text, hparse⟩, -⟩ := resolveEndpoint_eq_some hresolve
    exact IpAddr.wellFormed_of_parse hparse

/-! ## 3. The whole call -/

/-- A response that `hyper` has parsed. -/
structure HyperResponse where
  status : Nat
  headers : List Field
  body : List UInt8
  statusOk : 100 ≤ status ∧ status < 1000

/-- What a call meets: whether the body of the request arrives, what comes back on the plain path, the
connection and the client's side on the upgrade path.  Where there is none, there is the text of an error. -/
structure Exchange where
  bodyArrives : Bool
  answer : Except String HyperResponse
  tunnel : Except String Upstream
  client : ClientSide

/-- How a call ends: with an answer of its own, with one that is relayed, with an error of `hyper`, or with
a panic. -/
inductive Ended where
  | answered (response : Response)
  | relayed (status : Nat) (headers : List Field) (body : List UInt8)
  | failed
  | panicked
  deriving DecidableEq, Repr

/-- `builder.body(body).unwrap()`. -/
def unwrap : Option Response → Ended
  | some response => .answered response
  | none => .panicked

/-- The answer that is relayed: its status and its headers go through a builder again. -/
def relay (full : List String → Bool) (r : HyperResponse) : Ended :=
  match (Builder.status r.status).parts with
  | none => .panicked
  | some (status, _) =>
    if HeaderMap.fits full [] (r.headers.map Prod.fst) then
      .relayed status (HeaderMap.iter (HeaderMap.ofList r.headers)) r.body
    else .panicked

/-- The plain path from `proxy_req.body(..).unwrap()` on. -/
def sendPlain (full : List String → Bool) (proxyReq : RequestBuilder) (answer : Except String HyperResponse) : Ended :=
  match proxyReq.parts with
  | none => .panicked
  | some _ =>
    match answer with
    | .error e => unwrap (badGateway ("proxy error: " ++ e ++ "\n"))
    | .ok r => relay full r

/-- `proxy_request`, to its end. -/
def proxyRequestEnd (full : List String → Bool) (known : Known) (tlsIncoming : Bool) (req : Request) (x : Exchange) :
    Ended :=
  match proxyRequest known tlsIncoming req with
  | .refused response => unwrap ((Builder.status response.status).body response.body)
  | .upgrade _ _ _ =>
    match x.tunnel with
    | .error msg => unwrap (badGateway msg)
    | .ok upstream => unwrap (wsHandshakeAndTunnel full ⟨req.method, req.headers⟩ req.host req.path tlsIncoming
        upstream x.client).response
  | .plain addr backendTls _ path _ =>
    if x.bodyArrives = false then .failed
    else sendPlain full (proxyReq full req tlsIncoming (proxyUri addr backendTls path)) x.answer

/-! ## 4. When it panics -/

theorem unwrap_ne_panicked_iff (response : Option Response) : unwrap response ≠ .panicked ↔ response.isSome := by
  cases response <;> simp [unwrap]

theorem unwrap_status (code : Nat) (body : String) (h : 100 ≤ code ∧ code < 1000) :
    unwrap ((Builder.status code).body body) ≠ .panicked := by
  rw [unwrap_ne_panicked_iff, Builder.body, Builder.status, if_pos h]
  rfl

theorem unwrap_badGateway (msg : String) : unwrap (badGateway msg) ≠ .panicked :=
  unwrap_status 502 msg (by decide)

/-- A refusal is an answer. -/
theorem unwrap_refusal {known : Known} {host : String} {response : Response}
    (h : destination known host = .error response) :
    unwrap ((Builder.status response.status).body response.body) ≠ .panicked := by
  rw [destination] at h
  split at h
  · cases h
  split at h
  · cases h
    exact unwrap_status 502 _ (by decide)
  split at h
  · cases h
    exact unwrap_status 503 _ (by decide)
  · cases h

/-- What `hyper` has parsed can be relayed, if the headers fit. -/
theorem relay_ne_panicked_iff (full : List String → Bool) (r : HyperResponse) :
    relay full r ≠ .panicked ↔ HeaderMap.fits full [] (r.headers.map Prod.fst) = true := by
  rw [relay, Builder.status, if_pos r.statusOk]
  dsimp only
  split
  · rename_i hfits
    exact iff_of_true Ended.noConfusion hfits
  · rename_i hfits
    exact iff_of_false (fun h => h rfl) hfits

/-- The status and the headers of an answer to an upgrade are a status and headers, and the headers fit. -/
def Reading.Acceptable (full : List String → Bool) (reading : Reading) : Prop :=
  (100 ≤ reading.status ∧ reading.status < 1000) ∧
    (∀ kv ∈ reading.headers, validName kv.1 = true ∧ validValue kv.2 = true) ∧
    HeaderMap.fits full [] (reading.headers.map fun kv => HttpHead.lowerName kv.1) = true

theorem isSome_response_iff (full : List String → Bool) (reading : Reading) :
    (reading.response full).isSome ↔ reading.Acceptable full := by
  have htakes : takes full [] reading.headers = true ↔
      (∀ kv ∈ reading.headers, validName kv.1 = true ∧ validValue kv.2 = true) ∧
        HeaderMap.fits full [] (reading.headers.map fun kv => HttpHead.lowerName kv.1) = true := by
    simp only [takes, Bool.and_eq_true, List.all_eq_true]
    exact Iff.rfl
  rw [Reading.response, Builder.body, Option.isSome_map, parts_foldl_header, Reading.Acceptable, ← htakes,
    Builder.status]
  split
  · rename_i hstatus
    rw [and_iff_right hstatus, Option.bind_some, List.map_nil]
    cases takes full [] reading.headers <;> simp
  · rename_i hstatus
    exact iff_of_false Bool.false_ne_true fun h => hstatus h.1

/-- What is read of the upstream's answer to an upgrade, if it comes to that. -/
def Exchange.reading (x : Exchange) : Option Reading :=
  match x.tunnel with
  | .error _ => none
  | .ok upstream =>
    if upstream.accepts then (readUntil hasTerminator [] upstream.reads).map fun p => readHead p.1 else none

/-- A handshake panics when it has read something that is no answer. -/
theorem handshake_ne_panicked_iff {upstream : Upstream} {x : Exchange} (hx : x.tunnel = .ok upstream)
    (full : List String → Bool) (req : UpgradeRequest) (host path : String) (tlsIncoming : Bool) :
    unwrap (wsHandshakeAndTunnel full req host path tlsIncoming upstream x.client).response ≠ .panicked ↔
      ∀ reading ∈ x.reading, reading.Acceptable full := by
  obtain ⟨accepts, reads⟩ := upstream
  have hnone : x.reading = none → ∀ reading ∈ x.reading, reading.Acceptable full := by
    intro hreading reading hmem
    rw [hreading] at hmem
    cases hmem
  cases accepts with
  | false => exact iff_of_true (unwrap_badGateway _) (hnone (by rw [Exchange.reading, hx]; rfl))
  | true =>
    cases hread : readUntil hasTerminator [] reads with
    | none =>
      refine iff_of_true ?_ (hnone (by rw [Exchange.reading, hx]; simp [hread]))
      rw [wsHandshakeAndTunnel, if_neg Bool.noConfusion, hread]
      exact unwrap_badGateway _
    | some p =>
      obtain ⟨buf, rest⟩ := p
      have hreading : x.reading = some (readHead buf) := by
        rw [Exchange.reading, hx]
        simp [hread]
      rw [response_of_readUntil hread, unwrap_ne_panicked_iff, isSome_response_iff, hreading]
      simp

/-- The URI of the plain path is one, and the headers of the request fit, as do those of the answer, if one comes. -/
def PlainOk (full : List String → Bool) (tlsIncoming : Bool) (req : Request) (addr : SocketAddr) (backendTls : Bool)
    (answer : Except String HyperResponse) : Prop :=
  (if backendTls then req.path.toList.head? ≠ some '?'
    else Uri.byteLen (proxyUri addr backendTls req.path) ≤ Uri.maxLen) ∧
  HeaderMap.fits full [] ((proxyHeaders req tlsIncoming).map Prod.fst) = true ∧
  ∀ r, answer = .ok r → HeaderMap.fits full [] (r.headers.map Prod.fst) = true

/-- Everything that goes into a builder is accepted: on the upgrade path what is read of the answer, and on
the plain path, once the body is there, the URI and the headers. -/
def Unwrappable (full : List String → Bool) (known : Known) (tlsIncoming : Bool) (req : Request) (x : Exchange) :
    Prop :=
  ∀ addr backendTls, destination known req.host = .ok (addr, backendTls) →
    if req.isUpgrade then ∀ reading ∈ x.reading, reading.Acceptable full
    else x.bodyArrives = true → PlainOk full tlsIncoming req addr backendTls x.answer

/-- The plain path panics when its URI is none, or when headers do not fit. -/
theorem sendPlain_ne_panicked_iff (full : List String → Bool) {req : Request} (htarget : Targeted req)
    {addr : SocketAddr} (haddr : addr.ip.WellFormed) (tlsIncoming backendTls : Bool)
    (answer : Except String HyperResponse) :
    sendPlain full (proxyReq full req tlsIncoming (proxyUri addr backendTls req.path)) answer ≠ .panicked ↔
      PlainOk full tlsIncoming req addr backendTls answer := by
  rw [PlainOk, ← isSome_parse_proxyUri htarget haddr]
  unfold sendPlain
  rw [parts_proxyReq]
  cases Uri.parse (proxyUri addr backendTls req.path) with
  | none => simp
  | some u =>
    rw [Option.bind_some, and_iff_right (Option.isSome_some)]
    cases HeaderMap.fits full [] ((proxyHeaders req tlsIncoming).map Prod.fst) with
    | false => simp
    | true =>
      rw [and_iff_right rfl]
      cases answer with
      | error e => exact iff_of_true (unwrap_badGateway _) nofun
      | ok r =>
        simp only [Except.ok.injEq, forall_eq']
        exact relay_ne_panicked_iff full r

section Sent

variable {known : Known} {req : Request} {addr : SocketAddr} {backendTls : Bool}
  (hdest : destination known req.host = .ok (addr, backendTls)) (full : List String → Bool) (tlsIncoming : Bool)
  (x : Exchange)

include hdest

theorem upgrade_ne_panicked_iff (hup : req.isUpgrade = true) :
    proxyRequestEnd full known tlsIncoming req x ≠ .panicked ↔ ∀ reading ∈ x.reading, reading.Acceptable full := by
  have hsent : ∃ head, proxyRequest known tlsIncoming req = .upgrade addr backendTls head := by
    rw [proxyRequest, hdest, hup]
    exact ⟨_, rfl⟩
  obtain ⟨head, hsent⟩ := hsent
  rw [proxyRequestEnd, hsent]
  dsimp only
  cases htunnel : x.tunnel with
  | error msg =>
    refine iff_of_true (unwrap_badGateway msg) fun reading hmem => ?_
    rw [Exchange.reading, htunnel] at hmem
    cases hmem
  | ok upstream => exact handshake_ne_panicked_iff htunnel full _ _ _ _

theorem plain_ne_panicked_iff (htarget : Targeted req) (hup : req.isUpgrade = false) :
    proxyRequestEnd full known tlsIncoming req x ≠ .panicked ↔
      (x.bodyArrives = true → PlainOk full tlsIncoming req addr backendTls x.answer) := by
  have hsent : proxyRequest known tlsIncoming req =
      .plain addr backendTls req.method req.path (proxyHeaders req tlsIncoming) := by
    rw [proxyRequest, hdest, hup]
    rfl
  rw [proxyRequestEnd, hsent]
  dsimp only
  cases x.bodyArrives with
  | false => exact iff_of_true Ended.noConfusion fun h => absurd h Bool.false_ne_true
  | true =>
    rw [if_neg Bool.noConfusion, imp_iff_right rfl]
    exact sendPlain_ne_panicked_iff full htarget (wellFormed_of_destination hdest) tlsIncoming backendTls x.answer

end Sent

/-- There is one destination. -/
theorem forall_destination_iff {known : Known} {host : String} {addr : SocketAddr} {backendTls : Bool}
    (hdest : destination known host = .ok (addr, backendTls)) (P : SocketAddr → Bool → Prop) :
    (∀ addr' backendTls', destination known host = .ok (addr', backendTls') → P addr' backendTls') ↔
      P addr backendTls := by
  constructor
  · exact fun h => h addr backendTls hdest
  · rintro h addr' backendTls' heq
    rw [hdest] at heq
    cases heq
    exact h

/-- **Nothing panics, exactly when everything that goes into a builder is accepted.** -/
theorem no_panic_iff (full : List String → Bool) (known : Known) (tlsIncoming : Bool) {req : Request}
    (htarget : Targeted req) (x : Exchange) :
    proxyRequestEnd full known tlsIncoming req x ≠ .panicked ↔ Unwrappable full known tlsIncoming req x := by
  cases hdest : destination known req.host with
  | error response =>
    have hsent : proxyRequest known tlsIncoming req = .refused response := by
      rw [proxyRequest, hdest]
    rw [proxyRequestEnd, hsent]
    refine iff_of_true (unwrap_refusal hdest) fun addr backendTls h => ?_
    rw [hdest] at h
    cases h
  | ok dest =>
    obtain ⟨addr, backendTls⟩ := dest
    rw [Unwrappable, forall_destination_iff hdest]
    cases hup : req.isUpgrade with
    | true =>
      rw [if_pos rfl]
      exact upgrade_ne_panicked_iff hdest full tlsIncoming x hup
    | false =>
      rw [if_neg Bool.false_ne_true]
      exact plain_ne_panicked_iff hdest full tlsIncoming x htarget hup

/-- A request for the OAuth server whose target is in absolute form, with a query and no path. -/
def queryRequest : Request := { silent with path := "?x=1", line := by decide +kernel }

/-- The upstream's answer to an upgrade, in one read. -/
def upgradeAnswer (text : String) : Exchange where
  bodyArrives := true
  answer := .error "connect failed"
  tunnel := .ok ⟨true, [.data (Utf8.encode text)]⟩
  client := .staysOpen

theorem targeted_silentUpgrade : Targeted silentUpgrade :=
  ⟨"/healthz".toList, ⟨none, [], "/healthz".toList⟩, by decide +kernel, rfl⟩

/-- An upgrade that is refused in order. -/
theorem no_panic_iff_refusal :
    proxyRequestEnd manyNames noRoutes true silentUpgrade (upgradeAnswer "HTTP/1.1 404 Not Found\r\n\r\n") ≠ .panicked := by
  refine (no_panic_iff manyNames noRoutes true targeted_silentUpgrade _).mpr fun addr backendTls _ => ?_
  have hup : silentUpgrade.isUpgrade = true := by decide +kernel
  rw [if_pos hup]
  have hreading : (upgradeAnswer "HTTP/1.1 404 Not Found\r\n\r\n").reading = some ⟨false, 404, []⟩ := by
    decide +kernel
  rw [hreading]
  rintro reading hmem
  cases hmem
  exact ⟨by decide, nofun, rfl⟩

/-- A target without a path panics over TLS.  So does an upgrade that is answered with a status of four digits,
or with a header that has a blank in its name. -/
theorem no_panic_not :
    (Uri.parse "http://oauth-openshift.apps.ocp-sim.test?x=1".toList).map Uri.pathText =
        some queryRequest.path.toList ∧
      proxyRequestEnd manyNames noRoutes true queryRequest (upgradeAnswer "") = .panicked ∧
      Targeted silentUpgrade ∧
      proxyRequestEnd manyNames noRoutes true silentUpgrade (upgradeAnswer "HTTP/1.1 1000 X\r\n\r\n") = .panicked ∧
      proxyRequestEnd manyNames noRoutes true silentUpgrade
        (upgradeAnswer "HTTP/1.1 101 Switching\r\nbad name: x\r\n\r\n") = .panicked :=
  ⟨by decide +kernel, by decide +kernel, targeted_silentUpgrade, by decide +kernel, by decide +kernel⟩

end Picoshift.Proxy
